import Mathlib
import SectionLedger.Command.Workspace
import SectionLedger.Proofs.Directory.ReadBack
import SectionLedger.Proofs.Ledger.Loaded

/-!
# What a workspace gives back

The directory of a workspace gives back what is written to its files, so a text that is written is
read (`Workspace.exists_writeText_of_readText`) and a ledger that is saved is loaded
(`Workspace.loadLedger_of_lasting`), while files at other places stay as they are.  The device that
drops what is written to it reads as the empty text.  So it cannot be mistaken for a saved ledger,
which is not empty, and nothing is lost when the empty text is written to it.
-/

namespace SectionLedger

namespace Workspace

variable {w w' : Workspace} {path other text held : String} {l l' : Ledger}

/-! ### Texts -/

/-- A text that is read is that of the bytes of the file. -/
lemma exists_read_of_readText (h : w.readText path = .ok text) :
    ∃ content, w.directory.read path = .ok content ∧ Text.readUtf8? content = some text := by
  unfold readText Directory.readText at h
  cases hread : w.directory.read path with
  | error cause =>
    rw [hread] at h
    contradiction
  | ok content =>
    refine ⟨content, rfl, ?_⟩
    rw [hread] at h
    cases htext : Text.readUtf8? content with
    | none =>
      simp only [bind, Except.bind, htext] at h
      contradiction
    | some t =>
      simp only [bind, Except.bind, htext] at h
      rw [Except.ok.inj h]

/-- The bytes of a file are read as their text. -/
lemma readText_of_read {content : ByteArray} (h : w.directory.read path = .ok content)
    (htext : Text.readUtf8? content = some text) : w.readText path = .ok text := by
  rw [readText, Directory.readText_of_read h htext]
  rfl

/-- The bytes of a text are read as that text. -/
lemma readText_of_read_toUTF8 (h : w.directory.read path = .ok text.toUTF8) :
    w.readText path = .ok text :=
  readText_of_read h (Text.readUtf8?_toUTF8 text)

/-- What writing a text does to a workspace. -/
lemma exists_write_of_writeText (h : w.writeText path text = .ok w') :
    ∃ d, w.directory.write path text.toUTF8 = .ok d ∧ w' = { w with directory := d } := by
  unfold writeText Directory.writeText at h
  split at h
  · next d hwrite => exact ⟨d, hwrite, (Except.ok.inj h).symm⟩
  · contradiction

/-- A text is written wherever a file can be. -/
lemma exists_writeText (h : w.directory.Writable path) (text : String) :
    ∃ w', w.writeText path text = .ok w' := by
  obtain ⟨d, hwrite⟩ := Directory.exists_write h text.toUTF8
  refine ⟨{ w with directory := d }, ?_⟩
  rw [writeText, Directory.writeText, hwrite]

/-- A file whose text can be read can be written. -/
lemma writable_of_readText (h : w.readText path = .ok text) : w.directory.Writable path := by
  obtain ⟨content, hread, -⟩ := exists_read_of_readText h
  exact Directory.writable_of_read hread

/-- A text is written in place of one that is read, and is there afterwards.  It has to be empty if
that one is, which may be read from the device that drops what is written. -/
lemma exists_writeText_of_readText (h : w.readText path = .ok held)
    (hempty : held = "" → text = "") :
    ∃ w', w.writeText path text = .ok w' ∧ w'.directory.read path = .ok text.toUTF8 := by
  obtain ⟨w', hwrite⟩ := exists_writeText (writable_of_readText h) text
  obtain ⟨d, hd, rfl⟩ := exists_write_of_writeText hwrite
  refine ⟨_, hwrite, ?_⟩
  rcases Directory.read_write_self hd with hread | ⟨rfl, hread⟩
  · exact hread
  · -- the device that drops what is written to it is read as the empty text
    have hheld : w.readText path = .ok "" := readText_of_read_toUTF8 hread
    rw [hempty (Except.ok.inj (h.symm.trans hheld))]
    exact hread

/-- The text of a file at another place stays. -/
lemma readText_writeText_other (h : w.writeText path text = .ok w')
    (hdistinct : w.directory.Distinct path other) (hwritable : w.directory.Writable other) :
    w'.readText other = .ok held ↔ w.readText other = .ok held := by
  obtain ⟨d, hwrite, rfl⟩ := exists_write_of_writeText h
  constructor
  · intro hheld
    obtain ⟨content, hread, htext⟩ := exists_read_of_readText hheld
    exact readText_of_read ((Directory.read_write_other hwrite hdistinct hwritable).mp hread) htext
  · intro hheld
    obtain ⟨content, hread, htext⟩ := exists_read_of_readText hheld
    exact readText_of_read ((Directory.read_write_other hwrite hdistinct hwritable).mpr hread) htext

/-- Two paths that lead to different places do so after a text is written to one of them. -/
lemma distinct_writeText (h : w.writeText path text = .ok w')
    (hdistinct : w.directory.Distinct path other) (hwritable : w.directory.Writable other) :
    w'.directory.Distinct other path := by
  obtain ⟨d, hwrite, rfl⟩ := exists_write_of_writeText h
  exact hdistinct.of_write hwrite hwritable

/-! ### Sources and ledgers -/

/-- A source that is read is that of the text of the file. -/
lemma exists_readText_of_readSource {source : Source} (h : w.readSource path = .ok source) :
    ∃ text, w.readText path = .ok text ∧ source = .ofFile text := by
  unfold readSource at h
  cases htext : w.readText path with
  | error fault =>
    rw [htext] at h
    contradiction
  | ok text =>
    rw [htext] at h
    exact ⟨text, rfl, (Except.ok.inj h).symm⟩

/-- The text of a file is read as its source. -/
lemma readSource_of_readText (h : w.readText path = .ok text) :
    w.readSource path = .ok (.ofFile text) := by
  rw [readSource, h]
  rfl

/-- A file that can be read is loaded as the ledger that was saved in it. -/
lemma loadLedger_of_readText (h : w.readText path = .ok text) :
    w.loadLedger path = Ledger.ofSavedText text := by
  obtain ⟨content, hread, -⟩ := exists_read_of_readText h
  rw [loadLedger, if_pos (Directory.has_of_read hread), h]
  rfl

/-- A ledger that is loaded is the empty one, for want of a file, or the one that was saved in the
file. -/
lemma loadLedger_cases (h : w.loadLedger path = .ok l) :
    w.directory.has path = false ∧ l = .empty ∨
      ∃ text, w.readText path = .ok text ∧ Ledger.ofSavedText text = .ok l := by
  unfold loadLedger at h
  split at h
  · obtain ⟨text, htext, hload⟩ := exists_of_bind_eq_ok h
    exact .inr ⟨text, htext, hload⟩
  · next hnone => exact .inl ⟨Bool.not_eq_true _ ▸ hnone, (Except.ok.inj h).symm⟩

/-- The numbers of a loaded ledger fit a machine word. -/
lemma fitsWords_of_loadLedger (h : w.loadLedger path = .ok l) : l.FitsWords := by
  rcases loadLedger_cases h with ⟨-, rfl⟩ | ⟨text, -, hload⟩
  · exact Ledger.fitsWords_empty
  · exact Ledger.fitsWords_of_ofSavedText hload

/-- A file that a ledger is loaded from is not empty. -/
lemma readText_ne_empty_of_loadLedger (h : w.loadLedger path = .ok l) :
    w.readText path ≠ .ok "" := by
  intro hempty
  have hmalformed : Ledger.ofSavedText "" = .error .malformedJson := rfl
  rw [loadLedger_of_readText hempty, hmalformed] at h
  contradiction

/-- What is written where a ledger can be loaded and saved lasts there. -/
lemma lasting_of_loadLedger (h : w.loadLedger path = .ok l)
    (hwritable : w.directory.Writable path) : w.directory.Lasting path := by
  obtain ⟨place, hplace, hfolder⟩ := hwritable
  refine ⟨place, hplace, hfolder, ?_⟩
  intro hsink
  have hread : w.directory.read path = .ok .empty :=
    Directory.read_eq_ok_iff.mpr ⟨place, hplace, .inr ⟨hsink, rfl⟩⟩
  exact readText_ne_empty_of_loadLedger h (readText_of_read_toUTF8 hread)

/-- What is written lasts where it did before a text is written anywhere. -/
lemma lasting_of_writeText (h : w.writeText path text = .ok w')
    (hlasting : w.directory.Lasting other) : w'.directory.Lasting other := by
  obtain ⟨d, hwrite, rfl⟩ := exists_write_of_writeText h
  exact hlasting.of_write hwrite

/-- **A ledger that is saved is loaded again**, where what is written lasts. -/
theorem loadLedger_of_lasting (h : w.saveLedger path l = .ok w') (hfits : l.FitsWords)
    (hlasting : w.directory.Lasting path) : w'.loadLedger path = .ok l := by
  obtain ⟨d, hwrite, rfl⟩ := exists_write_of_writeText h
  have hread : ({ w with directory := d } : Workspace).readText path = .ok l.savedText :=
    readText_of_read_toUTF8 (hlasting.read_write hwrite)
  rw [loadLedger_of_readText hread, Ledger.ofSavedText_savedText hfits]

/-- A source and a ledger are read together if each of them is. -/
lemma readBoth_eq_ok_iff {ledgerPath : String} {source : Source} :
    w.readBoth path ledgerPath = .ok (source, l) ↔
      w.readSource path = .ok source ∧ w.loadLedger ledgerPath = .ok l := by
  unfold readBoth
  cases w.readSource path with
  | error fault => simp [bind, Except.bind]
  | ok s =>
    cases w.loadLedger ledgerPath with
    | error fault => simp [bind, Except.bind]
    | ok l' => simp [bind, Except.bind, pure, Except.pure]

end Workspace

end SectionLedger
