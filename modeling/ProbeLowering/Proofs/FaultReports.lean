import ProbeLowering.Proofs.DocumentPlaces
import ProbeLowering.Settings.Config

/-!
# Reports of faults

Wherever a character of a configuration starts, a report of a fault there counts the lines up
to it, repeats its line, and puts a mark below it.  The mark is moved by bytes and not by
characters, so that it is below the place only if all that leads up to the place on its line
is in ASCII.  The faults of a configuration are at such places (`report_shows_place`).
-/

namespace ProbeLowering.Config

open Toml (Item Entries Key)

abbrev Sound {α : Type} (P : Nat → Prop) (Q : α → Prop) (x : Decoded α) : Prop :=
  Settles (fun fault : Fault => P fault.position) Q x

section Places

variable {P : Nat → Prop} {key : Nat} {item : Item}

theorem placed_positionOf (hkey : P key) (hitem : item.Placed P) : P (positionOf key item) := by
  unfold positionOf
  cases hstart : item.start? with
  | none => exact hkey
  | some n => exact hitem.of_start? n hstart

theorem sound_wrongType {α : Type} {Q : α → Prop} (hkey : P key) (hitem : item.Placed P)
    (expected : String) : Sound P Q (wrongType key item expected) :=
  placed_positionOf hkey hitem

theorem sound_decodeString (hkey : P key) (hitem : item.Placed P) :
    Sound P (fun _ => True) (decodeString key item) := by
  unfold decodeString
  split
  · trivial
  · exact sound_wrongType hkey hitem _

theorem sound_decodeBool (hkey : P key) (hitem : item.Placed P) :
    Sound P (fun _ => True) (decodeBool key item) := by
  unfold decodeBool
  split
  · trivial
  · exact sound_wrongType hkey hitem _

theorem sound_levelNamed {position : Nat} (h : P position) (name : String) :
    Sound P (fun _ => True) (levelNamed name position) := by
  unfold levelNamed
  split
  · trivial
  · exact h

theorem sound_decodeLevelTable {position : Nat} {entries : Entries} (h : P position)
    (hentries : entries.Placed P) :
    Sound P (fun _ => True) (decodeLevelTable position entries) := by
  unfold decodeLevelTable
  split
  · exact h
  next key body =>
    have hbody := placed_positionOf h (hentries.items (key, body) List.mem_cons_self)
    refine (sound_levelNamed (hentries.keys (key, body) List.mem_cons_self) _).bind fun _ _ => ?_
    cases emptyBody body with
    | ok _ => trivial
    | error mismatch => exact hbody
  · exact h

theorem sound_decodeLevel (hkey : P key) (hitem : item.Placed P) :
    Sound P (fun _ => True) (decodeLevel key item) := by
  unfold decodeLevel
  split
  next start name =>
    cases hitem with
    | scalar hstart => exact sound_levelNamed hstart name
  · split
    next entries hentries =>
      exact sound_decodeLevelTable (placed_positionOf hkey hitem) (hitem.of_entries? hentries)
    · exact placed_positionOf hkey hitem

def FieldPlaced (P : Nat → Prop) (field : String × Nat × Item) : Prop :=
  P field.2.1 ∧ field.2.2.Placed P

theorem sound_fields (hkey : P key) (hitem : item.Placed P) (names : List String)
    (what : String) :
    Sound P (fun found => ∀ field ∈ found, FieldPlaced P field) (fields names what key item) := by
  unfold fields
  split
  next entries _ hentries =>
    have hplaced := hitem.of_entries? hentries
    intro field hfield
    obtain ⟨entry, hentry, rfl⟩ := List.mem_map.mp hfield
    exact ⟨hplaced.keys entry hentry, hplaced.items entry hentry⟩
  next items _ hitems =>
    intro field hfield
    obtain ⟨⟨name, item⟩, hzip, rfl⟩ := List.mem_map.mp hfield
    have hplaced := hitem.of_items? hitems item (List.of_mem_zip hzip).2
    exact ⟨placed_positionOf hkey hplaced, hplaced⟩
  · exact nofun
  · exact sound_wrongType hkey hitem _

theorem sound_setGeneral (config : GeneralConfig) {field : String × Nat × Item}
    (h : FieldPlaced P field) : Sound P (fun _ => True) (setGeneral config field) := by
  obtain ⟨name, key, item⟩ := field
  unfold setGeneral
  dsimp only
  split
  · exact (sound_decodeString h.1 h.2).bind fun _ _ => trivial
  · exact (sound_decodeBool h.1 h.2).bind fun _ _ => trivial
  · exact (sound_decodeLevel h.1 h.2).bind fun _ _ => trivial
  · trivial

theorem sound_setOutput (config : OutputConfig) {field : String × Nat × Item}
    (h : FieldPlaced P field) : Sound P (fun _ => True) (setOutput config field) := by
  obtain ⟨name, key, item⟩ := field
  unfold setOutput
  dsimp only
  split
  · exact (sound_decodeBool h.1 h.2).bind fun _ _ => trivial
  · trivial

theorem sound_decodeGeneral (hkey : P key) (hitem : item.Placed P) :
    Sound P (fun _ => True) (decodeGeneral key item) :=
  (sound_fields hkey hitem _ _).bind fun _ hfound =>
    .foldlM (fun config _ field hfield => sound_setGeneral config (hfound field hfield)) trivial

theorem sound_decodeOutput (hkey : P key) (hitem : item.Placed P) :
    Sound P (fun _ => True) (decodeOutput key item) :=
  (sound_fields hkey hitem _ _).bind fun _ hfound =>
    .foldlM (fun config _ field hfield => sound_setOutput config (hfound field hfield)) trivial

theorem sound_setSection (config : Config) {entry : Key × Item} (hkey : P entry.1.start)
    (hitem : entry.2.Placed P) : Sound P (fun _ => True) (setSection config entry) := by
  unfold setSection
  dsimp only
  split
  · exact (sound_decodeGeneral hkey hitem).bind fun _ _ => trivial
  · exact (sound_decodeOutput hkey hitem).bind fun _ _ => trivial
  · trivial

theorem sound_ofEntries {root : Entries} (h : root.Placed P) :
    Sound P (fun _ => True) (ofEntries root) :=
  .foldlM (fun config _ entry hentry =>
    sound_setSection config (h.keys entry hentry) (h.items entry hentry)) trivial

end Places

theorem boundary_of_parse {text : String} {fault : Fault} (h : parse text = .error fault) :
    Toml.Boundary text.toList fault.position := by
  have hparse := Toml.checked_parse text
  unfold parse at h
  cases hroot : Toml.parse text with
  | error problem =>
      rw [hroot] at h hparse
      cases h
      exact hparse
  | ok root =>
      rw [hroot] at h hparse
      have hdecoded : ofEntries root = .error fault := h
      have hsound := sound_ofEntries hparse
      rw [hdecoded] at hsound
      exact hsound

/-! ## Reports -/

def column (lead : List Char) : Nat := (String.ofList lead).utf8ByteSize

def markBehind (blanks : Nat) : String :=
  String.ofList (List.replicate blanks ' ' ++ ['^'])

/--
The place in the text stands behind `lead` on its line.  A report of it counts the line feeds
before it, and repeats the line up to its ending.  Below it, the mark stands behind as many
blanks as the lead has bytes.
-/
structure PlaceShown (path text message : String) (position : Nat)
    (earlier lead later line : List Char) : Prop where
  split : text.toList = earlier ++ lead ++ later
  placed : (String.ofList (earlier ++ lead)).utf8ByteSize = position
  starts : Text.StartsLine earlier
  unbroken : '\n' ∉ lead
  repeated : Text.FirstLine (lead ++ later) line
  shown : reportAt path text message position =
    let number := (earlier ++ lead).count '\n' + 1
    s!"Configuration file parsing error in '{path}'\n\n" ++
      s!"Error at line {number}, column {column lead + 1}:\n" ++
      s!"{message}\n\n{String.ofList line}\n{markBehind (column lead)}\n\n" ++
      s!"Suggestion: {suggestion message}"

section Reports

variable {text : String} {position : Nat} {earlier lead later : List Char}

theorem placeShown_of_split (htext : text.toList = earlier ++ lead ++ later)
    (hposition : Toml.Read.byteLength (earlier ++ lead) = position)
    (hearlier : Text.StartsLine earlier) (hlead : '\n' ∉ lead) (path message : String) :
    PlaceShown path text message position earlier lead later
      (Text.lineAt (earlier ++ lead ++ later) (earlier.count '\n')) where
  split := htext
  placed := by rw [Text.utf8ByteSize_ofList, hposition]
  starts := hearlier
  unbroken := hlead
  repeated := Text.firstLine_of_split hearlier later
  shown := by
    have hplace := Text.placeOf_split hearlier hlead later
    rw [← htext, String.ofList_toList, hposition] at hplace
    have hcount : (earlier ++ lead).count '\n' = earlier.count '\n' := by
      rw [List.count_append, List.count_eq_zero.mpr hlead, Nat.add_zero]
    unfold reportAt
    dsimp only
    rw [hplace, htext, hcount, column, Text.utf8ByteSize_ofList]
    rfl

theorem exists_placeShown (h : Toml.Boundary text.toList position) (path message : String) :
    ∃ earlier lead later line, PlaceShown path text message position earlier lead later line := by
  obtain ⟨before, later, htext, hposition⟩ := h
  obtain ⟨earlier, lead, rfl, hearlier, hlead⟩ := Text.exists_lead before
  exact ⟨earlier, lead, later, _, placeShown_of_split htext hposition hearlier hlead path message⟩

theorem column_eq_length_iff (lead : List Char) :
    column lead = lead.length ↔ ∀ c ∈ lead, c.toNat < 0x80 := by
  rw [column, Text.utf8ByteSize_ofList]
  exact Text.byteLength_eq_length_iff lead

end Reports

/--
Wherever a character of the text starts, a report shows the place, and its mark is below that
character exactly if those before it on the line are in ASCII.  Every fault of the text is at
such a place.
-/
theorem report_shows_place (path text : String) :
    (∀ message position, Toml.Boundary text.toList position →
      ∃ earlier lead later line,
        PlaceShown path text message position earlier lead later line ∧
        (column lead = lead.length ↔ ∀ c ∈ lead, c.toNat < 0x80)) ∧
      ∀ fault, parse text = .error fault →
        Toml.Boundary text.toList fault.position ∧
          report path text fault = reportAt path text fault.mismatch.message fault.position := by
  refine ⟨fun message position h => ?_, fun fault h => ⟨boundary_of_parse h, rfl⟩⟩
  obtain ⟨earlier, lead, later, line, hshown⟩ := exists_placeShown h path message
  exact ⟨earlier, lead, later, line, hshown, column_eq_length_iff lead⟩

def loudLevel : String := "[general]\r\nlog_level = \"loud\"\r\n"

theorem report_shows_place_loudLevel :
    parse loudLevel = .error ⟨.unknownLevel "loud", 23⟩ ∧
      ∃ earlier lead later line,
        PlaceShown "tracelift.toml" loudLevel (Mismatch.unknownLevel "loud").message 23 earlier
          lead later line ∧
        (column lead = lead.length ↔ ∀ c ∈ lead, c.toNat < 0x80) :=
  have hparse : parse loudLevel = .error ⟨.unknownLevel "loud", 23⟩ := by decide +kernel
  have ⟨hplaces, hfaults⟩ := report_shows_place "tracelift.toml" loudLevel
  ⟨hparse, hplaces _ 23 (hfaults _ hparse).1⟩

def accentedLead : List Char := "general = \x7b log_file = \"é\", log_level = ".toList

def accentedRest : List Char := "\"loud\" \x7d\n".toList

def accentedText : String := String.ofList (accentedLead ++ accentedRest)

theorem mark_right_of_place :
    parse accentedText = .error ⟨.unknownLevel "loud", 41⟩ ∧
      PlaceShown "explicit.toml" accentedText (Mismatch.unknownLevel "loud").message 41 []
        accentedLead accentedRest (accentedLead ++ "\"loud\" \x7d".toList) ∧
      accentedLead.length = 40 ∧ column accentedLead = 41 :=
  have hparse : parse accentedText = .error ⟨.unknownLevel "loud", 41⟩ := by decide +kernel
  have hsplit : accentedText.toList = [] ++ accentedLead ++ accentedRest := String.toList_ofList
  have hposition : Toml.Read.byteLength ([] ++ accentedLead) = 41 := rfl
  ⟨hparse, placeShown_of_split hsplit hposition Text.startsLine_nil (by decide) _ _, rfl, rfl⟩

end ProbeLowering.Config
