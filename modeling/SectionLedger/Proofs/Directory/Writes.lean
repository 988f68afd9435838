import Mathlib
import SectionLedger.Proofs.Directory.ReadBack

/-!
# Files that are written one after the other

A write puts a file where none is, or replaces one.  It makes no folder and removes nothing, so
every path leads where it led (`SameFolders`), and the paths that lead to something are those that
did and those to the place of the file (`has_write_iff`).

After several writes, a file holds what was written to it last (`read_writeAll`).  A path to a place
where none of them wrote leads to something exactly if it did before (`has_writeAll`).
-/

namespace SectionLedger.Directory

variable {d d' : Directory} {path other : String} {place : Place} {content : ByteArray}
  {files older newer : List (String × ByteArray)}

/-! ### The same folders -/

/-- Two directories are seen from the same place, and have the same folders. -/
structure SameFolders (d d' : Directory) : Prop where
  kept : d.KeepsFolders d'
  noMore : d'.KeepsFolders d

namespace SameFolders

/-- A directory has its own folders. -/
lemma refl (d : Directory) : d.SameFolders d := ⟨.refl d, .refl d⟩

/-- Directories with the folders of a third have the same folders. -/
lemma trans {d'' : Directory} (h : d.SameFolders d') (h' : d'.SameFolders d'') :
    d.SameFolders d'' where
  kept := ⟨h'.kept.home_eq.trans h.kept.home_eq,
    fun place hplace => h'.kept.folder place (h.kept.folder place hplace)⟩
  noMore := ⟨h.noMore.home_eq.trans h'.noMore.home_eq,
    fun place hplace => h.noMore.folder place (h'.noMore.folder place hplace)⟩

/-- A place is a folder of both or of none. -/
lemma folder_iff (h : d.SameFolders d') :
    d'.get? place = some .folder ↔ d.get? place = some .folder :=
  ⟨h.noMore.folder place, h.kept.folder place⟩

/-- A path leads to the same place in both. -/
lemma locate_iff (h : d.SameFolders d') : d'.locate path = .ok place ↔ d.locate path = .ok place :=
  ⟨h.noMore.locate, h.kept.locate⟩

/-- A path leads to the same place for a file in both. -/
lemma locateFile_iff (h : d.SameFolders d') :
    d'.locateFile path = .ok place ↔ d.locateFile path = .ok place :=
  ⟨h.noMore.locateFile, h.kept.locateFile⟩

/-- Paths that lead to different places do so in both. -/
lemma distinct_iff (h : d.SameFolders d') : d'.Distinct path other ↔ d.Distinct path other := by
  simp only [Distinct, ne_eq, h.locateFile_iff]

end SameFolders

/-- A write makes no folder. -/
lemma sameFolders_of_write (h : d.write path content = .ok d') : d.SameFolders d' := by
  refine ⟨keepsFolders_of_write h, ?_⟩
  obtain ⟨place, -, hfolder, ⟨-, rfl⟩ | rfl⟩ := write_cases h
  · exact .refl d'
  · refine ⟨rfl, fun p hp => ?_⟩
    by_cases heq : p = place
    · rw [heq, get?_set_self hfolder] at hp
      cases hp
    · rwa [get?_set_other heq] at hp

/-! ### What is there after a write -/

/-- A path leads to something if it leads to the place of a folder, or if something is at the place
and the path does not ask for a folder. -/
lemma has_iff :
    d.has path = true ↔ ∃ place, d.locate path = .ok place ∧
      (d.get? place = some .folder ∨ Path.endsInSlash path = false ∧ d.get? place ≠ none) := by
  unfold has find
  cases hlocate : d.locate path with
  | error fault => simp [bind, Except.bind, Except.isOk, Except.toBool]
  | ok place =>
    cases hget : d.get? place with
    | none => simp [bind, Except.bind, Except.isOk, Except.toBool, hget]
    | some entry =>
      cases entry <;> cases Path.endsInSlash path <;>
        simp [bind, Except.bind, Except.isOk, Except.toBool, hget]

/-- A file can be written, and lasts, where there is nothing. -/
lemma lasting_of_not_has (h : d.has path = false) (hplace : d.locateFile path = .ok place) :
    d.Lasting path := by
  obtain ⟨hslash, hlocate⟩ := locateFile_eq_ok_iff.mp hplace
  have hnone : d.get? place = none := by
    by_contra hsome
    have hhas : d.has path = true := has_iff.mpr ⟨place, hlocate, .inr ⟨hslash, hsome⟩⟩
    rw [h] at hhas
    contradiction
  exact ⟨place, hplace, by simp [hnone], by simp [hnone]⟩

/-- After a write there is what was there, and the file. -/
lemma get?_write_ne_none_iff (h : d.write path content = .ok d') :
    d'.get? place ≠ none ↔ d.get? place ≠ none ∨ d.locateFile path = .ok place := by
  obtain ⟨p, hp, hfolder, hwrite⟩ := write_cases h
  rw [hp, Except.ok.injEq]
  rcases hwrite with ⟨hsink, rfl⟩ | rfl
  · refine ⟨Or.inl, fun hor => hor.elim id ?_⟩
    rintro rfl
    simp [hsink]
  · by_cases heq : place = p
    · simp [heq, get?_set_self hfolder]
    · simp [get?_set_other heq, Ne.symm heq]

/-- After a write, the paths that lead to something are those that did, and those that lead where
the file was written. -/
lemma has_write_iff (h : d.write path content = .ok d') :
    d'.has other = true ↔ d.has other = true ∨ ¬ d.Distinct path other := by
  have hsame := sameFolders_of_write h
  simp only [has_iff, not_distinct_iff, hsame.locate_iff, hsame.folder_iff,
    get?_write_ne_none_iff h, locateFile_eq_ok_iff]
  constructor
  · rintro ⟨place, hlocate, hfolder | ⟨hslash, hthere | hfile⟩⟩
    · exact .inl ⟨place, hlocate, .inl hfolder⟩
    · exact .inl ⟨place, hlocate, .inr ⟨hslash, hthere⟩⟩
    · exact .inr ⟨place, hfile, hslash, hlocate⟩
  · rintro (⟨place, hlocate, hfolder | ⟨hslash, hthere⟩⟩ | ⟨place, hfile, hslash, hlocate⟩)
    · exact ⟨place, hlocate, .inl hfolder⟩
    · exact ⟨place, hlocate, .inr ⟨hslash, .inl hthere⟩⟩
    · exact ⟨place, hlocate, .inr ⟨hslash, .inr hfile⟩⟩

/-! ### One file after the other -/

/-- The directory with a file written, or as it is if the file cannot be written. -/
def tryWrite (d : Directory) (path : String) (content : ByteArray) : Directory :=
  (d.write path content).toOption.getD d

/-- The directory with files written one after the other, less those that cannot be written. -/
def writeAll (d : Directory) (files : List (String × ByteArray)) : Directory :=
  files.foldl (fun d file => d.tryWrite file.1 file.2) d

lemma writeAll_cons (d : Directory) (file : String × ByteArray)
    (files : List (String × ByteArray)) :
    d.writeAll (file :: files) = (d.tryWrite file.1 file.2).writeAll files := rfl

lemma writeAll_append (d : Directory) (older newer : List (String × ByteArray)) :
    d.writeAll (older ++ newer) = (d.writeAll older).writeAll newer := List.foldl_append

/-- A file is written, or the directory is as it was. -/
lemma tryWrite_cases (d : Directory) (path : String) (content : ByteArray) :
    d.write path content = .ok (d.tryWrite path content) ∨ d.tryWrite path content = d := by
  unfold tryWrite
  cases d.write path content with
  | error fault => exact .inr rfl
  | ok d' => exact .inl rfl

/-- What a write preserves holds after any number of them. -/
lemma writeAll_induction {P : Directory → Prop}
    (hstep : ∀ {d d' : Directory} {path : String} {content : ByteArray}, P d →
      d.write path content = .ok d' → P d') (hd : P d) (files : List (String × ByteArray)) :
    P (d.writeAll files) := by
  induction files generalizing d with
  | nil => exact hd
  | cons file files ih =>
    rw [writeAll_cons]
    rcases d.tryWrite_cases file.1 file.2 with hwrite | hsame
    · exact ih (hstep hd hwrite)
    · rw [hsame]
      exact ih hd

/-- Any number of writes makes no folder. -/
lemma sameFolders_writeAll (d : Directory) (files : List (String × ByteArray)) :
    d.SameFolders (d.writeAll files) :=
  writeAll_induction (P := d.SameFolders) (fun hd hwrite => hd.trans (sameFolders_of_write hwrite))
    (.refl d) files

/-- Where files last, they do so after any number of writes. -/
lemma Lasting.writeAll (h : d.Lasting path) (files : List (String × ByteArray)) :
    (d.writeAll files).Lasting path :=
  writeAll_induction (P := fun d => d.Lasting path) (fun hd hwrite => hd.of_write hwrite) h files

/-- A path to a place where nothing is written leads to something exactly if it did before. -/
lemma has_writeAll (h : ∀ file ∈ files, d.Distinct file.1 path) :
    (d.writeAll files).has path = d.has path := by
  induction files generalizing d with
  | nil => rfl
  | cons file files ih =>
    obtain ⟨hfile, hfiles⟩ := List.forall_mem_cons.mp h
    rw [writeAll_cons]
    rcases d.tryWrite_cases file.1 file.2 with hwrite | hsame
    · have hsame := sameFolders_of_write hwrite
      rw [ih fun f hf => hsame.distinct_iff.mpr (hfiles f hf), Bool.eq_iff_iff,
        has_write_iff hwrite]
      simp [hfile]
    · rw [hsame, ih hfiles]

/-- A file is read as before after writes to other places. -/
lemma read_writeAll_of_distinct (h : ∀ file ∈ files, d.Distinct file.1 path)
    (hread : d.read path = .ok content) : (d.writeAll files).read path = .ok content := by
  induction files generalizing d with
  | nil => exact hread
  | cons file files ih =>
    obtain ⟨hfile, hfiles⟩ := List.forall_mem_cons.mp h
    rw [writeAll_cons]
    rcases d.tryWrite_cases file.1 file.2 with hwrite | hsame
    · have hsame := sameFolders_of_write hwrite
      exact ih (fun f hf => hsame.distinct_iff.mpr (hfiles f hf))
        ((read_write_other hwrite hfile (writable_of_read hread)).mpr hread)
    · rw [hsame]
      exact ih hfiles hread

/-! ### What is written last -/

/-- Of several files that are written one after the other, the last at the place that a path leads
to has this content. -/
def LastWritten (d : Directory) (path : String) (files : List (String × ByteArray))
    (content : ByteArray) : Prop :=
  ∃ older name newer, files = older ++ (name, content) :: newer ∧ ¬ d.Distinct name path ∧
    ∀ file ∈ newer, d.Distinct file.1 path

/-- If anything is written at a place, something is written last there. -/
lemma exists_lastWritten_or_distinct (d : Directory) (path : String)
    (files : List (String × ByteArray)) :
    (∃ content, d.LastWritten path files content) ∨ ∀ file ∈ files, d.Distinct file.1 path := by
  induction files with
  | nil => exact .inr nofun
  | cons file files ih =>
    rcases ih with ⟨content, older, name, newer, rfl, hname, hnewer⟩ | hfiles
    · exact .inl ⟨content, file :: older, name, newer, rfl, hname, hnewer⟩
    · by_cases hfile : d.Distinct file.1 path
      · exact .inr (List.forall_mem_cons.mpr ⟨hfile, hfiles⟩)
      · exact .inl ⟨file.2, [], file.1, files, rfl, hfile, hfiles⟩

/-- What is written last at a place is written there. -/
lemma LastWritten.not_forall_distinct (h : d.LastWritten path files content) :
    ¬ ∀ file ∈ files, d.Distinct file.1 path := by
  obtain ⟨older, name, newer, rfl, hname, -⟩ := h
  exact fun hdistinct => hname (hdistinct (name, content) (by simp))

/-- **The last write counts.**  A file holds what was written to it last, by whatever path. -/
theorem read_writeAll (hlasting : d.Lasting path) (h : d.LastWritten path files content) :
    (d.writeAll files).read path = .ok content := by
  obtain ⟨older, name, newer, rfl, hname, hnewer⟩ := h
  rw [writeAll_append, writeAll_cons]
  have hsame := sameFolders_writeAll d older
  have hlasting' : (d.writeAll older).Lasting path := hlasting.writeAll older
  have hname' : ¬ (d.writeAll older).Distinct name path := hsame.distinct_iff.not.mpr hname
  obtain ⟨d', hwrite⟩ : ∃ d', (d.writeAll older).write name content = .ok d' := by
    obtain ⟨place, hplace, hpath⟩ := not_distinct_iff.mp hname'
    obtain ⟨p, hp, hfolder, -⟩ := hlasting'
    obtain rfl : place = p := Except.ok.inj (hpath.symm.trans hp)
    exact exists_write ⟨place, hplace, hfolder⟩ content
  have hlast : d'.read path = .ok content := hlasting'.read_write_same hwrite hname'
  have hsame' : d.SameFolders d' := hsame.trans (sameFolders_of_write hwrite)
  have hnewer' : ∀ file ∈ newer, d'.Distinct file.1 path :=
    fun file hfile => hsame'.distinct_iff.mpr (hnewer file hfile)
  have htry : (d.writeAll older).tryWrite name content = d' := by
    rw [tryWrite, hwrite]
    rfl
  rw [htry]
  exact read_writeAll_of_distinct hnewer' hlast

end SectionLedger.Directory
