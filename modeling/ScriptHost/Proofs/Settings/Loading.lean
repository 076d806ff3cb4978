import ScriptHost.Settings.Discovery
import ScriptHost.Proofs.Json.Documents
import ScriptHost.Proofs.Json.Written
import ScriptHost.Proofs.Settings.Rearrangement
import ScriptHost.Proofs.Settings.Sections
import ScriptHost.Proofs.Text.Utf8

/-!
# Settings files

The settings in a file are what its document says: the value that is named for each field that is
mentioned, and the default for each field that is not. Documents that say the same give the same
settings.
-/

namespace ScriptHost
namespace Settings

open Json (Reading Quoted Spells SpellsPadded)

variable {system : FileSystem} {path text : String} {tree : Reading} {settings : Settings}

theorem toOption_parse
    {chars : List Char}
    (spells : SpellsPadded tree chars) :
    (parse chars).toOption = settings? tree := by
  rw [parse, spells.read_eq, toOption_bind, toOption_ofReading spells.skipFault?_eq_none]
  exact Option.bind_fun_some _

theorem toOption_load
    (isFile : system.readFile path = .ok (Utf8.encode text))
    (spells : SpellsPadded tree text.toList) :
    (load system path).toOption = settings? tree := by
  rw [load, isFile]
  simp only [(Utf8.decode?_eq_some_iff _ _).mpr rfl]
  rw [← toOption_parse spells]
  cases parse text.toList <;> rfl

theorem load_eq_ok_iff
    (isFile : system.readFile path = .ok (Utf8.encode text))
    (spells : SpellsPadded tree text.toList) :
    load system path = .ok settings ↔ settings? tree = some settings := by
  rw [← toOption_load isFile spells]
  cases load system path <;> simp [Except.toOption]

/-- A file of the grammar is loaded if its document is well-typed, the settings are what the
document says, and they do not change with the way in which the document is written. -/
theorem load_overlay
    (isFile : system.readFile path = .ok (Utf8.encode text))
    (spells : SpellsPadded tree text.toList) :
    (IsWellTyped sectionNames IsSection tree ↔ ∃ settings, load system path = .ok settings) ∧
    (∀ settings, load system path = .ok settings ↔ settings? tree = some settings) ∧
    ∀ (other : FileSystem) (otherPath otherText : String) (otherTree : Reading),
      other.readFile otherPath = .ok (Utf8.encode otherText) →
      SpellsPadded otherTree otherText.toList →
      SameContent tree otherTree →
      ∀ settings, load other otherPath = .ok settings ↔ load system path = .ok settings := by
  refine ⟨?_, fun settings => load_eq_ok_iff isFile spells, ?_⟩
  · rw [← isSome_settings?_iff, Option.isSome_iff_exists]
    exact exists_congr fun settings => (load_eq_ok_iff isFile spells).symm
  · rintro other otherPath otherText otherTree isOtherFile spellsOther sameContent settings
    rw [load_eq_ok_iff isOtherFile spellsOther, load_eq_ok_iff isFile spells,
      sameContent.settings?_eq]

/-- A directory that holds a settings file only. -/
def holding (text : String) : FileSystem where
  entries := [([fileName], .file (Utf8.encode text))]
  current := []

/-- A number that is given. -/
def three : Reading := .number ⟨false, [3], none, none⟩

/-- The settings with another number of operations at once. -/
def withThree : Settings :=
  { default with scheduler := { SchedulerSettings.default with defaultConcurrency := 3 } }

/-- A section that is given as an array, and the same as an object next to a member of another
name. -/
theorem load_overlay_three :
    load (holding "\x7b\"scheduler\":[3]\x7d") fileName = .ok withThree ∧
      load (holding "\x7b\"x\":null,\"scheduler\":\x7b\"default_concurrency\":3\x7d\x7d")
        fileName = .ok withThree := by
  have isGap : Json.IsGap [] := Json.isGap_nil
  have isWhole : Json.IsWhole [3] := ⟨⟨by decide, by decide⟩, .inr (by decide)⟩
  have spellsThree : Spells three ['3'] := Json.spells_digitChars isWhole
  have named (name : String) : Json.SpellsString (.ofChars name.toList)
      (Json.quoted name.toList) := Json.spellsString_quoted name.toList
  have spellsArray : Spells (.array [three] none) ['[', '3', ']'] :=
    .array (.last spellsThree.padded)
  have spellsObject := Spells.object (.last (.colon isGap (named "default_concurrency") isGap
    spellsThree.padded))
  have spells := (Spells.object (.last (.colon isGap (named "scheduler") isGap
    spellsArray.padded))).padded
  have spellsOther := (Spells.object (.next (.colon isGap (named "x") isGap Spells.null.padded)
    (.last (.colon isGap (named "scheduler") isGap spellsObject.padded)))).padded
  have isFile (text : String) : (holding text).readFile fileName = .ok (Utf8.encode text) := rfl
  obtain ⟨-, isLoaded, isKept⟩ := load_overlay (isFile "\x7b\"scheduler\":[3]\x7d") spells
  have isThree : load (holding "\x7b\"scheduler\":[3]\x7d") fileName = .ok withThree :=
    (isLoaded withThree).mpr rfl
  have isListed : RearrangesSection "scheduler" (.array [three] none)
      (.object [(.ofChars "default_concurrency".toList, three)] none) :=
    .listed (by decide) (by decide) rfl
  refine ⟨isThree, (isKept _ _ _ _ (isFile _) spellsOther ?_ withThree).mpr isThree⟩
  exact .trans _ _ _ (.rel _ _ (.within [] [] isListed))
    (.rel _ _ (.unknown [] _ .null (by decide) (by decide)))

end Settings
end ScriptHost
