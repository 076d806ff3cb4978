import ScriptHost.Files
import ScriptHost.Session

/-!
# Storage

The functions for files and directories. A failure is thrown with its own words.
-/

namespace ScriptHost
namespace Natives

open Session

/-- Do something with files, or throw the words of its failure. What was done before a
failure stays done. -/
def withFiles
    {α : Type}
    (action : FileM α) : SessionM α := do
  match ← askHost fun host =>
      let (result, files) := action.run.run host.files
      (result, { host with files := files }) with
  | .ok value => pure value
  | .error error => raise error.message

/-- Do something with files that has no answer. -/
def quietly (action : FileM Unit) : SessionM Value := do
  withFiles action
  pure .undefined

/-- Paths as a value. -/
def pathsValue (paths : List String) : Value :=
  .array (paths.map Value.string)

/-- The path of the current directory. -/
def dirCurrent : SessionM Value := do
  let files := (← theHost).files
  match files.node? files.current with
  | some .directory => pure (.string files.currentPath)
  | _ => raise SystemError.noSuchFile.message

/-- Make another directory the current one. -/
def dirSetCurrent (path : String) : SessionM Value := do
  match (← theHost).files.changeDirectory path with
  | .ok files => do
      changeHost fun host => { host with files := files }
      pure .undefined
  | .error source => raise (path ++ ": " ++ source.message)

/-- A function of a path. -/
def ofPath (body : String → SessionM Value) : Native :=
  .plain 1 (Parameters.next Conversion.string) body

open Parameters in
/-- A function of a path with a flag that may be left out. -/
def ofPathAndFlag (body : String → Bool → SessionM Value) : Native :=
  .plain 1 (do return (← next Conversion.string, ← next? Conversion.bool))
    fun (path, flag?) => body path (flag?.getD false)

open Parameters in
/-- A function of two texts with a flag that may be left out. -/
def ofPairAndFlag (body : String → String → Bool → SessionM Value) : Native :=
  .plain 2
    (do return (← next Conversion.string, ← next Conversion.string, ← next? Conversion.bool))
    fun (first, second, flag?) => body first second (flag?.getD false)

open Parameters in
/-- A function of two texts. -/
def ofPair (body : String → String → SessionM Value) : Native :=
  .plain 2 (do return (← next Conversion.string, ← next Conversion.string))
    fun (first, second) => body first second

/-- The functions for files and directories. -/
def storage : List (String × Native) := [
  ("fileExists", ofPath fun path => do return .bool ((← theHost).files.isFile path)),
  ("fileDelete", ofPath fun path => quietly (Files.delete path)),
  ("fileCopy", ofPairAndFlag fun source target overwrite => do
    let _ ← withFiles (Files.copy source target overwrite)
    pure .undefined),
  ("fileMove", ofPairAndFlag fun source target overwrite =>
    quietly (Files.move source target overwrite)),
  ("fileSize", ofPath fun path => do return .ofCount (← withFiles (Files.size path))),
  ("fileReadText", ofPath fun path => do return .string (← withFiles (Files.readText path))),
  ("fileWriteText", ofPairAndFlag fun path text append =>
    quietly (Files.writeText path text append)),
  ("fileMd5", ofPath fun path => do return .string (← withFiles (Files.md5 path))),
  ("dirCreate", ofPath fun path => quietly (Files.makeDirectory path)),
  ("dirDelete", ofPathAndFlag fun path recursive =>
    quietly (Files.deleteDirectory path recursive)),
  ("dirExists", ofPath fun path => do return .bool ((← theHost).files.isDirectory path)),
  ("dirCopy", ofPair fun source target => quietly (Files.copyDirectory source target)),
  ("dirMove", ofPair fun source target => quietly (Files.moveDirectory source target)),
  ("dirCurrent", .plain 0 (pure ()) fun _ => dirCurrent),
  ("dirSetCurrent", ofPath dirSetCurrent),
  ("dirFiles", ofPathAndFlag fun path recursive => do
    return pathsValue (← withFiles (Files.list path .file recursive))),
  ("dirDirs", ofPathAndFlag fun path recursive => do
    return pathsValue (← withFiles (Files.list path .directory recursive)))]

end Natives
end ScriptHost
