import LatexTable.Proofs.Latex.TblrEntry
/-!
A reader of header entries. An entry gives the place of its cell in two groups, then the spans if
there are some, and the keys of the style; it is read as what its cell has.
-/
namespace LatexTable
open Latex Text

namespace Latex

/-- The keys in the last group of an entry. -/
def entryKeys (entry : String) : List String :=
  ((entry.toList.dropLast.rtakeWhile (· ≠ '\x7b')).splitOn ',').map String.ofList

end Latex

/-- What a header entry says of a cell: its place, counted from one, the spans that it gives, and
the keys of its style. -/
structure CellEntry where
  row : Nat
  col : Nat
  rowSpan : Option Nat
  colSpan : Option Nat
  keys : List String
  deriving DecidableEq, Repr

namespace CellEntry

/-- The number behind a key name, in the key that has this name. -/
def span? (name : Char) (keys : List (List Char)) : Option Nat :=
  keys.findSome? fun key => (behind? [name, '='] key).bind fun ds => (String.ofList ds).toNat?

/-- The pieces of a group if another one follows: spans stand in front of the keys only. -/
def spanPieces (cs : List Char) : List (List Char) :=
  let (group, rest) := cut '\x7d' cs
  if rest.isEmpty then [] else group.splitOn ','

/-- Reads an item of the header that is an entry: the place in two groups, then the spans if there
are some, and the keys. -/
def read? (item : String) : Option CellEntry := do
  let (row, rest) := cut '\x7d' (← behind? "cell\x7b".toList item.toList)
  let (col, rest) := cut '\x7d' (← behind? "\x7b".toList rest)
  let spans := spanPieces (← behind? " = \x7b".toList rest)
  return {
    row := ← (String.ofList row).toNat?
    col := ← (String.ofList col).toNat?
    rowSpan := span? 'r' spans
    colSpan := span? 'c' spans
    keys := (entryKeys item).filter (· ≠ "") }

end CellEntry

/-- The entry of a cell at a place: a span is given when it exceeds one. -/
def Cell.entry (c : Cell) (row col : Nat) : CellEntry where
  row := row + 1
  col := col + 1
  rowSpan := if 1 < c.rowSpan then some c.rowSpan else none
  colSpan := if 1 < c.colSpan then some c.colSpan else none
  keys := styleKeys c.style

namespace Latex

variable {c c' : Cell} {style : CellStyle} {row col row' col' : Nat} {item : String}

section Keys

theorem rtakeWhile_append_cons {cs front : List Char} {d : Char} (h : d ∉ cs) :
    (front ++ d :: cs).rtakeWhile (· ≠ d) = cs := by
  have hall : ∀ e ∈ cs.reverse, decide (e ≠ d) = true := fun e he =>
    decide_eq_true (ne_of_mem_of_not_mem (List.mem_reverse.mp he) h)
  rw [List.rtakeWhile, List.reverse_append, List.reverse_cons, List.append_assoc,
    List.takeWhile_append_of_pos hall]
  simp

/-- Keys without marks are read back from the last group of an entry. -/
theorem entryKeys_append_braced {front : String} {keys : List String} (hne : keys ≠ [])
    (hkeys : ∀ key ∈ keys, ',' ∉ key.toList ∧ '\x7b' ∉ key.toList) :
    entryKeys (front ++ braced (",".intercalate keys)) = keys := by
  have hfree {d : Char} (h : ∀ key ∈ keys, d ∉ key.toList) :
      ∀ p ∈ keys.map String.toList, d ∉ p := by
    simpa only [List.forall_mem_map] using h
  have hbraced : (braced (",".intercalate keys)).toList =
      '\x7b' :: [','].intercalate (keys.map String.toList) ++ ['\x7d'] := by simp [braced]
  have hgroup : '\x7b' ∉ [','].intercalate (keys.map String.toList) :=
    notMem_intercalate (by decide) (hfree fun key hkey => (hkeys key hkey).2)
  rw [entryKeys, String.toList_append, hbraced, ← List.append_assoc, List.dropLast_concat,
    rtakeWhile_append_cons hgroup, List.splitOn_intercalate ','
      (hfree fun key hkey => (hkeys key hkey).1) (by simpa using hne)]
  simp [List.map_map, Function.comp_def]

/-- The keys of a style are read back from the entry of its cell; an empty group is read as one
empty key. -/
theorem entryKeys_cellEntry (h : c.style.ParsedColors) (he : cellEntry? c row col = some item) :
    entryKeys item = if styleKeys c.style = [] then [""] else styleKeys c.style := by
  unfold cellEntry? at he
  simp only [Option.ite_none_left_eq_some, Option.some.injEq] at he
  obtain ⟨-, rfl⟩ := he
  by_cases hnil : styleKeys c.style = []
  · have hempty : ",".intercalate ([] : List String) = ",".intercalate [""] := by simp
    rw [if_pos hnil, hnil, hempty, entryKeys_append_braced (by simp) (by simp)]
  · rw [if_neg hnil, entryKeys_append_braced hnil fun key hkey =>
      ⟨notMem_styleKey h hkey (by simp), notMem_styleKey h hkey (by simp)⟩]

theorem empty_notMem_styleKeys : "" ∉ styleKeys style := by
  unfold styleKeys
  cases style.isBold <;> cases style.isItalic <;> simp

end Keys

section Spans

theorem toNat?_digits (n : Nat) : (String.ofList (digits n)).toNat? = some n := by
  rw [digits, String.ofList_toList]
  exact Nat.toNat?_repr n

/-- The spans of a cell are read back from their keys. -/
theorem span?_spanKeys (c : Cell) :
    CellEntry.span? 'r' ((spanKeys c).map String.toList) =
        (if 1 < c.rowSpan then some c.rowSpan else none) ∧
      CellEntry.span? 'c' ((spanKeys c).map String.toList) =
        (if 1 < c.colSpan then some c.colSpan else none) := by
  rw [toList_spanKeys]
  split <;> split <;> simp [CellEntry.span?, behind?, toNat?_digits]

/-- The spans of a cell are read from the groups of its entry. -/
theorem exists_groups (h : c.style.ParsedColors) : ∃ rest, groups c = '\x7b' :: rest ∧
    CellEntry.spanPieces rest = (spanKeys c).map String.toList := by
  unfold groups
  dsimp only
  split
  next hs =>
    refine ⟨_, rfl, ?_⟩
    have hfree : ∀ p ∈ (spanKeys c).map String.toList, ',' ∉ p :=
      fun p hp => notMem_spanKey hp (by simp)
    have hclose : '\x7d' ∉ [','].intercalate ((spanKeys c).map String.toList) :=
      notMem_intercalate (by simp) fun p hp => notMem_spanKey hp (by simp)
    rw [CellEntry.spanPieces, cut_append hclose]
    exact List.splitOn_intercalate ',' hfree (spanKeys_ne_nil hs)
  next hs =>
    refine ⟨_, rfl, ?_⟩
    have hnil : spanKeys c = [] := by
      simp only [Cell.isSpanning, Bool.or_eq_true, decide_eq_true_eq, not_or] at hs
      rw [spanKeys, if_neg hs.1, if_neg hs.2, List.append_nil]
    rw [CellEntry.spanPieces, cut_append (notMem_styleKeys h (by simp)), hnil]
    rfl

end Spans

/-- The entry of a cell is read as what it says. -/
theorem read_cellEntry (h : c.style.ParsedColors) (he : cellEntry? c row col = some item) :
    CellEntry.read? item = some (c.entry row col) := by
  have hdigits (n : Nat) : '\x7d' ∉ digits n := notMem_digits n (by decide)
  have hkeys : (entryKeys item).filter (· ≠ "") = styleKeys c.style := by
    rw [entryKeys_cellEntry h he]
    split
    next hnil => simp [hnil]
    next =>
      refine List.filter_eq_self.mpr fun key hkey => decide_eq_true ?_
      exact ne_of_mem_of_not_mem hkey empty_notMem_styleKeys
  obtain ⟨rest, hgroups, hspans⟩ := exists_groups h
  have hcol : '\x7b' :: (digits (col + 1) ++ '\x7d' :: (" = ".toList ++ '\x7b' :: rest)) =
      "\x7b".toList ++ (digits (col + 1) ++ '\x7d' :: (" = \x7b".toList ++ rest)) := by simp
  unfold CellEntry.read?
  rw [(cellEntry_eq_some he).2, hgroups, hcol]
  simp only [behind?_append, Option.bind_eq_bind, Option.bind_some, cut_append (hdigits _),
    toNat?_digits, hspans, span?_spanKeys c, hkeys]
  rfl

/-- Entries that say the same stand for the same place, and their cells have the same spans. -/
theorem entry_inj (hpos : ∀ axis, 0 < c.span axis) (hpos' : ∀ axis, 0 < c'.span axis)
    (h : c.entry row col = c'.entry row' col') :
    row = row' ∧ col = col' ∧ ∀ axis, c.span axis = c'.span axis := by
  have hgiven {m n : Nat} (hm : 0 < m) (hn : 0 < n)
      (h : (if 1 < m then some m else none) = if 1 < n then some n else none) : m = n := by
    split at h <;> split at h
    · exact Option.some.inj h
    · cases h
    · cases h
    · omega
  injection h with hrow hcol hrows hcols
  refine ⟨Nat.succ.inj hrow, Nat.succ.inj hcol, ?_⟩
  intro axis
  cases axis with
  | row => exact hgiven (hpos .row) (hpos' .row) hrows
  | column => exact hgiven (hpos .column) (hpos' .column) hcols

end Latex
end LatexTable
