import LatexTable.Document.Files
import LatexTable.Proofs.Document.Codec
import LatexTable.Proofs.Document.PathFormat
import LatexTable.Proofs.Result
/-!
Documents in files. A text that has been written is what the path leads to: writing takes no
directory away, and it makes none of the place of the text. A document that has been written is
found again under a path that names its format; under any other path it is TOML that nobody loads.
-/
namespace LatexTable
open Result

namespace FileStore

variable {s s' : FileStore} {place directory next : FilePlace} {path : FilePath} {text : String}
  {found : FilePlace × String}

theorem text?_put : (s.put place text).text? place = some text := by
  simp [text?, put]

theorem isDirectory_put (h : s.isDirectory next = true) :
    (s.put place text).isDirectory next = true := by
  simp only [isDirectory, Bool.or_eq_true, List.any_eq_true] at h ⊢
  refine h.imp_right ?_
  rintro ⟨entry, hentry, hprefix⟩
  by_cases heq : entry.1 = place
  · exact ⟨(place, text), List.mem_cons_self, heq ▸ hprefix⟩
  · have hkept : entry ∈ s.texts.filter (·.1 ≠ place) :=
      List.mem_filter.mpr ⟨hentry, by simpa using heq⟩
    exact ⟨entry, List.mem_cons_of_mem _ hkept, hprefix⟩

theorem isDirectory_put_self (h : s.isDirectory place = false) :
    (s.put place text).isDirectory place = false := by
  simp only [isDirectory, Bool.or_eq_false_iff, List.any_eq_false] at h ⊢
  refine ⟨h.1, fun entry hentry => ?_⟩
  rcases List.mem_cons.mp hentry with rfl | hold
  · simp
  · exact h.2 entry (List.mem_filter.mp hold).1

theorem enter_put {name : String} (h : s.enter directory name = .ok next) :
    (s.put place text).enter directory name = .ok next := by
  unfold enter at h ⊢
  dsimp only at h ⊢
  split at h
  · rw [if_pos (isDirectory_put ‹_›)]
    exact h
  · split at h <;> cases h

theorem locate_put (h : s.locate path = .ok found) :
    (s.put place text).locate path = .ok found := by
  unfold locate at h ⊢
  split at h
  · exact h
  · obtain ⟨directory, hdirectory, hfound⟩ := bind_eq_ok.mp h
    refine bind_eq_ok.mpr ⟨directory, ?_, hfound⟩
    exact foldlM_eq_ok_of_imp (fun _ _ _ => enter_put) hdirectory

/-- A text that has been written can be read under the same path. -/
theorem read_write (h : s.write path text = .ok s') : s'.read path = .ok text := by
  obtain ⟨⟨directory, last⟩, hlocate, hwrite⟩ := bind_eq_ok.mp h
  dsimp only at hwrite
  split at hwrite
  · cases hwrite
  next hplain =>
    rw [Bool.or_eq_true, not_or, Bool.not_eq_true, Bool.not_eq_true] at hplain
    obtain ⟨hslash, hdirectory⟩ := hplain
    obtain rfl := pure_eq_ok.mp hwrite
    refine bind_eq_ok.mpr ⟨_, locate_put hlocate, ?_⟩
    simp [isDirectory_put_self hdirectory, text?_put, hslash, pure, Except.pure]

end FileStore

namespace TableDocument
open DocumentFormat

variable {d : TableDocument} {library : TextLibrary} {libraries : DocumentFormat → TextLibrary}
  {store store' : FileStore} {path text : String}

/-- The library reads what it writes for the document as the tree that it has written. -/
def CarriedBy (d : TableDocument) (library : TextLibrary) : Prop :=
  ∀ text ∈ library.write d.encodeFields, library.read shape text = some d.encode

instance : Decidable (d.CarriedBy library) :=
  inferInstanceAs (Decidable (∀ text ∈ library.write d.encodeFields, _))

theorem parseWith_toTextWith (h : d.Storable) (hcarried : d.CarriedBy library)
    (htext : toTextWith library d = .ok text) : parseWith library text = .ok d := by
  unfold toTextWith at htext
  split at htext
  next hwrite =>
    cases htext
    rw [parseWith, hcarried _ hwrite, Option.bind_some, decode_encode h]
  next => cases htext

/-- Saving writes a text of the document, which the file holds from then on. -/
theorem saveWith_eq_ok (h : saveWith libraries d store path = .ok store') :
    ∃ text, toTextWith (libraries ((ofPath? path).getD .toml)) d = .ok text ∧
      store'.read (.ofText path) = .ok text := by
  obtain ⟨text, htext, hstore⟩ := bind_eq_ok.mp h
  split at hstore
  · cases hstore
  next hwrite =>
    cases hstore
    exact ⟨text, htext, FileStore.read_write hwrite⟩

/-- A saved document is loaded under a path whose file name ends in a word for a format. Under any
other path the file holds the document as TOML, and loading refuses the path. The libraries may be
any that read what they have written. -/
theorem saved_loads (h : d.Storable) (hcarried : ∀ format, d.CarriedBy (libraries format))
    (hsave : saveWith libraries d store path = .ok store') :
    ((∃ format, NamesFormat path format) → loadWith libraries store' path = .ok d) ∧
      ((¬∃ format, NamesFormat path format) →
        loadWith libraries store' path = .error (.invalidDocument (.unknownFormat path)) ∧
          ∃ text, store'.read (.ofText path) = .ok text ∧
            parseWith (libraries .toml) text = .ok d) := by
  obtain ⟨text, htext, hread⟩ := saveWith_eq_ok hsave
  have hparse := parseWith_toTextWith h (hcarried _) htext
  constructor
  · rintro ⟨format, hnames⟩
    have hformat := ofPath?_eq_some_iff.mpr hnames
    rw [hformat, Option.getD_some] at hparse
    simp only [loadWith, hformat, hread, hparse]
  · intro hnone
    have hformat := ofPath?_eq_none_iff.mpr hnone
    rw [hformat, Option.getD_none] at hparse
    refine ⟨?_, text, hread, hparse⟩
    simp only [loadWith, hformat]

theorem saved_loads_mixed_case :
    let d : TableDocument := { rows := [["a"]] }
    let path := "./.Table.tOmL"
    (d.Storable ∧ ∀ format : DocumentFormat, d.CarriedBy format.library) ∧
      (∃ format, NamesFormat path format) ∧
        ∃ store', d.save {} path = .ok store' ∧ load store' path = .ok d := by
  intro d path
  have hstorable : d.Storable := ⟨by simp [d], by simp [d]⟩
  have hcarried : ∀ format : DocumentFormat, d.CarriedBy format.library := by
    intro format
    cases format <;> decide +kernel
  have hnames : ∃ format, NamesFormat path format :=
    ⟨.toml, ofPath?_eq_some_iff.mp (by decide +kernel)⟩
  have hok : (d.save {} path).isOk = true := by decide +kernel
  cases hsave : d.save {} path with
  | error e => exact nomatch hsave ▸ hok
  | ok store' =>
    exact ⟨⟨hstorable, hcarried⟩, hnames, store', rfl,
      (saved_loads hstorable hcarried hsave).1 hnames⟩

/-- A document that has been saved under a path without an extension is not loaded. -/
theorem saved_without_extension :
    let d : TableDocument := {}
    d.Storable ∧ d.CarriedBy DocumentFormat.toml.library ∧
      ∃ store', d.save {} "table" = .ok store' ∧ load store' "table" ≠ .ok d := by
  intro d
  refine ⟨⟨by simp [d], by simp [d]⟩, by decide +kernel, ?_⟩
  have hok : (d.save {} "table").isOk = true := by decide +kernel
  cases hsave : d.save {} "table" with
  | error e => exact nomatch hsave ▸ hok
  | ok store' =>
    have hformat : ofPath? "table" = none := by decide +kernel
    exact ⟨store', rfl, by simp [load, loadWith, hformat]⟩

end TableDocument
end LatexTable
