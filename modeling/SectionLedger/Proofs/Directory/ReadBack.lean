import Mathlib
import SectionLedger.Directory.Basic
import SectionLedger.Proofs.Attempt

/-!
# What is written to a file is read from it

Writing puts one entry at the place that a path leads to, and never where a folder is.  So every
folder stays (`KeepsFolders`), and with the folders every way through them: a path that led to a
place leads there still (`KeepsFolders.follow`).  From this a file that is written holds what was
written (`read_write_self`), and every file at another place holds what it held
(`read_write_other`).  The one exception is a device that drops what is written to it.
-/

namespace SectionLedger

/-- The bytes of a text are read as that text. -/
lemma Text.readUtf8?_toUTF8 (s : String) : readUtf8? s.toUTF8 = some s := by
  have hvalid : s.toUTF8.IsValidUTF8 := s.isValidUTF8
  rw [readUtf8?, String.fromUTF8?, dif_pos hvalid]
  rfl

/-! ### Entries -/

/-- The entry that is put in at a place is found there. -/
lemma lookup_setEntry_self (place : Place) (entry : Entry) (rows : List (Place × Entry)) :
    (setEntry place entry rows).lookup place = some entry := by
  induction rows with
  | nil => simp [setEntry]
  | cons row rows ih =>
    unfold setEntry
    split
    · exact List.lookup_cons_self
    · split
      · exact List.lookup_cons_self
      · next hne =>
        rw [List.lookup_cons, beq_false_of_ne hne]
        exact ih

/-- What stands at another place is found as before. -/
lemma lookup_setEntry_other {place other : Place} (h : other ≠ place) (entry : Entry)
    (rows : List (Place × Entry)) :
    (setEntry place entry rows).lookup other = rows.lookup other := by
  have hother : (other == place) = false := beq_false_of_ne h
  induction rows with
  | nil => simp [setEntry, List.lookup_cons, hother]
  | cons row rows ih =>
    unfold setEntry
    split
    · rw [List.lookup_cons, hother]
    · split
      · next heq =>
        rw [List.lookup_cons, hother, List.lookup_cons, ← heq, hother]
      · rw [List.lookup_cons, List.lookup_cons, ih]

namespace Directory

variable {d d' : Directory} {path other : String} {place : Place} {content : ByteArray}

/-- An entry put in where no folder is stands there. -/
lemma get?_set_self (h : d.get? place ≠ some .folder) (entry : Entry) :
    (d.set place entry).get? place = some entry := by
  have hprefix : ¬ place.isPrefixOf d.home = true := fun hp => h (get?_of_isPrefixOf hp)
  rw [get?, home_set, if_neg hprefix, set, lookup_setEntry_self, Option.some_or]

/-- An entry put in at one place changes no other. -/
lemma get?_set_other {p : Place} (h : p ≠ place) (entry : Entry) :
    (d.set place entry).get? p = d.get? p := by
  rw [get?, get?, home_set, set, lookup_setEntry_other h]

/-! ### Places of files -/

/-- A path leads to a place for a file if it leads to the place and does not end in a slash. -/
lemma locateFile_eq_ok_iff :
    d.locateFile path = .ok place ↔
      Path.endsInSlash path = false ∧ d.locate path = .ok place := by
  unfold locateFile locate
  cases hslash : Path.endsInSlash path with
  | true =>
    simp only [if_true, Bool.true_eq_false, false_and, iff_false]
    intro h
    obtain ⟨p, -, h⟩ := exists_of_bind_eq_ok h
    obtain ⟨q, -, h⟩ := exists_of_bind_eq_ok h
    contradiction
  | false => simp

/-! ### Folders that stay -/

/-- Two directories are seen from the same place, and every folder of one is a folder of the
other. -/
structure KeepsFolders (d d' : Directory) : Prop where
  home_eq : d'.home = d.home
  folder : ∀ place, d.get? place = some .folder → d'.get? place = some .folder

namespace KeepsFolders

/-- A directory keeps its own folders. -/
lemma refl (d : Directory) : d.KeepsFolders d := ⟨rfl, fun _ h => h⟩

/-- An entry put in where no folder is keeps the folders. -/
lemma set (h : d.get? place ≠ some .folder) (entry : Entry) :
    d.KeepsFolders (d.set place entry) where
  home_eq := rfl
  folder p hp := by
    have hne : p ≠ place := by
      rintro rfl
      exact h hp
    rw [get?_set_other hne, hp]

/-- Names that led through folders lead the same way. -/
lemma follow (h : d.KeepsFolders d') {start : Place} {names : List String}
    (hfollow : d.follow start names = .ok place) : d'.follow start names = .ok place := by
  induction names generalizing start with
  | nil => exact hfollow
  | cons name names ih =>
    unfold Directory.follow at hfollow ⊢
    cases hstart : d.get? start with
    | none =>
      rw [hstart] at hfollow
      contradiction
    | some entry =>
      rw [hstart] at hfollow
      cases entry with
      | file content => contradiction
      | sink => contradiction
      | folder =>
        rw [h.folder start hstart]
        simp only at hfollow ⊢
        split_ifs at hfollow ⊢
        · exact ih hfollow
        · exact ih hfollow
        · exact ih hfollow

/-- A path that led to a place leads to the same place. -/
lemma locate (h : d.KeepsFolders d') (hpath : d.locate path = .ok place) :
    d'.locate path = .ok place := by
  obtain ⟨p, hp, hfollow⟩ := exists_of_bind_eq_ok hpath
  have hstart : d'.start path = .ok p := by
    rw [← hp, start, start, h.home_eq]
  rw [Directory.locate, hstart]
  exact h.follow hfollow

/-- A path that led to a place for a file leads to the same place. -/
lemma locateFile (h : d.KeepsFolders d') (hpath : d.locateFile path = .ok place) :
    d'.locateFile path = .ok place := by
  obtain ⟨hslash, hlocate⟩ := locateFile_eq_ok_iff.mp hpath
  exact locateFile_eq_ok_iff.mpr ⟨hslash, h.locate hlocate⟩

end KeepsFolders

/-! ### Reading and writing by place -/

/-- A file is read at its place; the device that is empty to read, at its place as well. -/
lemma read_eq_ok_iff :
    d.read path = .ok content ↔ ∃ place, d.locateFile path = .ok place ∧
      (d.get? place = some (.file content) ∨ d.get? place = some .sink ∧ content = .empty) := by
  constructor
  · intro h
    obtain ⟨entry, hfind, h⟩ := exists_of_bind_eq_ok h
    obtain ⟨place, hplace, hfind⟩ := exists_of_bind_eq_ok hfind
    cases hget : d.get? place with
    | none =>
      rw [hget] at hfind
      contradiction
    | some e =>
      rw [hget] at hfind
      cases e with
      | folder =>
        obtain rfl := Except.ok.inj hfind
        contradiction
      | file c =>
        cases hslash : Path.endsInSlash path with
        | true => simp [hslash] at hfind
        | false =>
          simp only [hslash, Bool.false_eq_true, if_false, Except.ok.injEq] at hfind
          subst hfind
          obtain rfl := Except.ok.inj h
          exact ⟨place, locateFile_eq_ok_iff.mpr ⟨hslash, hplace⟩, .inl hget⟩
      | sink =>
        cases hslash : Path.endsInSlash path with
        | true => simp [hslash] at hfind
        | false =>
          simp only [hslash, Bool.false_eq_true, if_false, Except.ok.injEq] at hfind
          subst hfind
          obtain rfl := Except.ok.inj h
          exact ⟨place, locateFile_eq_ok_iff.mpr ⟨hslash, hplace⟩, .inr ⟨hget, rfl⟩⟩
  · rintro ⟨place, hplace, hget⟩
    obtain ⟨hslash, hlocate⟩ := locateFile_eq_ok_iff.mp hplace
    unfold read find
    rcases hget with hget | ⟨hget, rfl⟩
    · simp [hlocate, hget, hslash, bind, Except.bind]
    · simp [hlocate, hget, hslash, bind, Except.bind]

/-- A file is read as the text that its bytes are. -/
lemma readText_of_read {text : String} (h : d.read path = .ok content)
    (htext : Text.readUtf8? content = some text) : d.readText path = .ok text := by
  rw [readText, h]
  simp only [bind, Except.bind, htext]

/-- What can be read is there. -/
lemma has_of_read (h : d.read path = .ok content) : d.has path = true := by
  obtain ⟨entry, hfind, -⟩ := exists_of_bind_eq_ok h
  rw [has, hfind]
  rfl

/-- A file can be written to a path. -/
def Writable (d : Directory) (path : String) : Prop :=
  ∃ place, d.locateFile path = .ok place ∧ d.get? place ≠ some .folder

/-- Two paths do not lead to the same place for a file. -/
def Distinct (d : Directory) (path other : String) : Prop :=
  ∀ place, d.locateFile path = .ok place → d.locateFile other ≠ .ok place

/-- Two paths lead to the same place for a file. -/
lemma not_distinct_iff :
    ¬ d.Distinct path other ↔
      ∃ place, d.locateFile path = .ok place ∧ d.locateFile other = .ok place := by
  simp [Distinct]

/-- A file that can be read can be written. -/
lemma writable_of_read (h : d.read path = .ok content) : d.Writable path := by
  obtain ⟨place, hplace, hget⟩ := read_eq_ok_iff.mp h
  refine ⟨place, hplace, fun hfolder => ?_⟩
  rw [hfolder] at hget
  rcases hget with hget | ⟨hget, -⟩
  · cases hget
  · cases hget

/-- What a write does: nothing where there is a device, and otherwise it puts the file in at the
place. -/
lemma write_cases (h : d.write path content = .ok d') :
    ∃ place, d.locateFile path = .ok place ∧ d.get? place ≠ some .folder ∧
      (d.get? place = some .sink ∧ d' = d ∨ d' = d.set place (.file content)) := by
  obtain ⟨place, hplace, h⟩ := exists_of_bind_eq_ok h
  refine ⟨place, hplace, ?_⟩
  split at h
  · contradiction
  · next hsink =>
    exact ⟨by simp [hsink], .inl ⟨hsink, (Except.ok.inj h).symm⟩⟩
  · next hfolder _ =>
    exact ⟨hfolder, .inr (Except.ok.inj h).symm⟩

/-- A file is written wherever one can be. -/
lemma exists_write (h : d.Writable path) (content : ByteArray) :
    ∃ d', d.write path content = .ok d' := by
  obtain ⟨place, hplace, hfolder⟩ := h
  unfold write
  rw [hplace]
  simp only [bind, Except.bind]
  split
  · contradiction
  · exact ⟨_, rfl⟩
  · exact ⟨_, rfl⟩

/-- A write keeps the folders. -/
lemma keepsFolders_of_write (h : d.write path content = .ok d') : d.KeepsFolders d' := by
  obtain ⟨place, -, hfolder, ⟨-, rfl⟩ | rfl⟩ := write_cases h
  · exact .refl d'
  · exact .set hfolder _

/-- **A file holds what was written to it.**  Only from the device that drops it, nothing is
read. -/
theorem read_write_self (h : d.write path content = .ok d') :
    d'.read path = .ok content ∨ d' = d ∧ d.read path = .ok .empty := by
  have hkeeps := keepsFolders_of_write h
  obtain ⟨place, hplace, hfolder, ⟨hsink, rfl⟩ | rfl⟩ := write_cases h
  · exact .inr ⟨rfl, read_eq_ok_iff.mpr ⟨place, hplace, .inr ⟨hsink, rfl⟩⟩⟩
  · exact .inl (read_eq_ok_iff.mpr
      ⟨place, hkeeps.locateFile hplace, .inl (get?_set_self hfolder _)⟩)

/-- A write changes nothing at another place. -/
lemma get?_write_other (h : d.write path content = .ok d') (hdistinct : d.Distinct path other)
    {p : Place} (hp : d.locateFile other = .ok p) : d'.get? p = d.get? p := by
  obtain ⟨place, hplace, -, ⟨-, rfl⟩ | rfl⟩ := write_cases h
  · rfl
  · refine get?_set_other (fun heq => ?_) _
    rw [heq] at hp
    exact hdistinct place hplace hp

/-- **Every other file holds what it held.** -/
theorem read_write_other {held : ByteArray} (h : d.write path content = .ok d')
    (hdistinct : d.Distinct path other) (hwritable : d.Writable other) :
    d'.read other = .ok held ↔ d.read other = .ok held := by
  obtain ⟨p, hp, -⟩ := hwritable
  have hp' : d'.locateFile other = .ok p := (keepsFolders_of_write h).locateFile hp
  have hget : d'.get? p = d.get? p := get?_write_other h hdistinct hp
  simp only [read_eq_ok_iff, hp, hp', Except.ok.injEq, exists_eq_left', hget]

/-- Two paths that lead to different places do so after a write to one of them. -/
lemma Distinct.of_write (h : d.write path content = .ok d') (hdistinct : d.Distinct path other)
    (hwritable : d.Writable other) : d'.Distinct other path := by
  obtain ⟨place, hplace, -, -⟩ := write_cases h
  obtain ⟨p, hp, -⟩ := hwritable
  have hkeeps := keepsFolders_of_write h
  intro q hq hq'
  rw [hkeeps.locateFile hp] at hq
  rw [hkeeps.locateFile hplace] at hq'
  obtain rfl := Except.ok.inj hq
  obtain rfl := Except.ok.inj hq'
  exact hdistinct place hplace hp

/-! ### Where files last -/

/-- A file can be written to a path, and is not dropped there. -/
def Lasting (d : Directory) (path : String) : Prop :=
  ∃ place, d.locateFile path = .ok place ∧ d.get? place ≠ some .folder ∧ d.get? place ≠ some .sink

namespace Lasting

/-- A file can be written where it lasts. -/
lemma writable (h : d.Lasting path) : d.Writable path := by
  obtain ⟨place, hplace, hfolder, -⟩ := h
  exact ⟨place, hplace, hfolder⟩

/-- A file that lasts holds what was written to it, by whatever path. -/
lemma read_write_same (h : d.Lasting other) (hwrite : d.write path content = .ok d')
    (hsame : ¬ d.Distinct path other) : d'.read other = .ok content := by
  obtain ⟨p, hpath, hother⟩ := not_distinct_iff.mp hsame
  obtain ⟨q, hq, -, hsink⟩ := h
  obtain ⟨r, hr, hfolder, hcase⟩ := write_cases hwrite
  obtain rfl : p = q := Except.ok.inj (hother.symm.trans hq)
  obtain rfl : p = r := Except.ok.inj (hpath.symm.trans hr)
  have hother' : d'.locateFile other = .ok p := (keepsFolders_of_write hwrite).locateFile hother
  rcases hcase with ⟨hdropped, -⟩ | rfl
  · exact absurd hdropped hsink
  · exact read_eq_ok_iff.mpr ⟨p, hother', .inl (get?_set_self hfolder _)⟩

/-- A file that lasts holds what was written to it. -/
lemma read_write (h : d.Lasting path) (hwrite : d.write path content = .ok d') :
    d'.read path = .ok content := by
  obtain ⟨p, hp, -⟩ := id h
  exact h.read_write_same hwrite (not_distinct_iff.mpr ⟨p, hp, hp⟩)

/-- Where files last, they do so after a file is written anywhere. -/
lemma of_write (h : d.Lasting other) (hwrite : d.write path content = .ok d') :
    d'.Lasting other := by
  have hkeeps := keepsFolders_of_write hwrite
  obtain ⟨p, hp, hfolder, hsink⟩ := h
  obtain ⟨place, -, hplace, ⟨-, rfl⟩ | rfl⟩ := write_cases hwrite
  · exact ⟨p, hp, hfolder, hsink⟩
  · refine ⟨p, hkeeps.locateFile hp, ?_⟩
    by_cases heq : p = place
    · rw [heq, get?_set_self hplace]
      exact ⟨nofun, nofun⟩
    · rw [get?_set_other heq]
      exact ⟨hfolder, hsink⟩

end Lasting

end Directory

end SectionLedger
