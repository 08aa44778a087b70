import LatexTable.Proofs.Color
import LatexTable.Proofs.Document.Record
/-!
Documents through their trees. Each part of a document is written as the record of its slots, which
is of the part's shape and which the part is read back from. What writing leaves out is what reading
puts in: no value for an optional field, and the empty list for a list.
-/
namespace LatexTable
open Shape

theorem Node.word?_text {α : Type} (choice : String → Option α) (s : String) :
    word? choice (.text s) = choice s := rfl

@[simp] theorem Dialect.ofWord?_name (d : Dialect) : ofWord? d.name = some d := by
  cases d <;> decide

@[simp] theorem ColumnKind.ofWord?_name (kind : ColumnKind) : ofWord? kind.name = some kind := by
  cases kind <;> decide

@[simp] theorem HAlign.ofWord?_name (h : HAlign) : ofWord? h.name = some h := by
  cases h <;> decide

@[simp] theorem VAlign.ofWord?_name (v : VAlign) : ofWord? v.name = some v := by
  cases v <;> decide

variable {c : Conventions}

namespace TableOptions

def slots (o : TableOptions) : List (String × Option Node) :=
  [("caption", o.caption.map .text), ("label", o.label.map .text),
    ("long_table", some (.flag o.longTable)), ("horizontal_rules", some (.flag o.horizontalRules)),
    ("vertical_rules", some (.flag o.verticalRules)), ("centering", some (.flag o.centering)),
    ("theme", o.theme.map .text)]

theorem encode_eq (o : TableOptions) : o.encode = .record (present o.slots) := by
  simp only [encode, slots, optionalField_eq, present_cons]
  simp [present]

theorem keeps_encode (o : TableOptions) : Keeps c shape o.encode := by
  rw [encode_eq]
  exact Fits.record (.cons ⟨rfl, keeps_map keeps_text⟩ <| .cons ⟨rfl, keeps_map keeps_text⟩ <|
    .cons ⟨rfl, keeps_some (keeps_flag _)⟩ <| .cons ⟨rfl, keeps_some (keeps_flag _)⟩ <|
    .cons ⟨rfl, keeps_some (keeps_flag _)⟩ <| .cons ⟨rfl, keeps_some (keeps_flag _)⟩ <|
    .cons ⟨rfl, keeps_map keeps_text⟩ .nil) (by decide)

theorem decode_encode (o : TableOptions) : decode o.encode = some o := by
  rw [encode_eq]
  simp [decode, slots, Node.fields?, fieldOr_self, fieldOr_of_ne, elim_text, Node.flag?,
    -Option.elim_map]

end TableOptions

namespace ColumnSpec

def slots (s : ColumnSpec) : List (String × Option Node) :=
  [("kind", some (.text s.kind.name)), ("width", s.width.map .text)]

theorem encode_eq (s : ColumnSpec) : s.encode = .record (present s.slots) := by
  simp [encode, slots, optionalField_eq, present_cons]

theorem keeps_encode (s : ColumnSpec) : Keeps c shape s.encode := by
  rw [encode_eq]
  exact Fits.record (.cons ⟨rfl, keeps_some (keeps_word _ _)⟩ <|
    .cons ⟨rfl, keeps_map keeps_text⟩ .nil) (by decide)

theorem decode_encode (s : ColumnSpec) : decode s.encode = some s := by
  rw [encode_eq]
  simp [decode, slots, Node.fields?, fieldOr_self, fieldOr_of_ne, elim_text, Node.word?_text,
    -Option.elim_map]

end ColumnSpec

namespace MergeSpec

/-- The numbers of the region are machine words. -/
structure Indexed (m : MergeSpec) : Prop where
  row : m.row ≤ maxIndex
  col : m.col ≤ maxIndex
  rows : m.rows ≤ maxIndex
  cols : m.cols ≤ maxIndex

def slots (m : MergeSpec) : List (String × Option Node) :=
  [("row", some (.number m.row)), ("col", some (.number m.col)), ("rows", some (.number m.rows)),
    ("cols", some (.number m.cols))]

theorem encode_eq (m : MergeSpec) : m.encode = .record (present m.slots) := rfl

theorem keeps_encode (m : MergeSpec) : Keeps c shape m.encode := by
  rw [encode_eq]
  exact Fits.record (.cons ⟨rfl, keeps_some (keeps_number _)⟩ <|
    .cons ⟨rfl, keeps_some (keeps_number _)⟩ <| .cons ⟨rfl, keeps_some (keeps_number _)⟩ <|
    .cons ⟨rfl, keeps_some (keeps_number _)⟩ .nil) (by decide)

theorem decode_encode {m : MergeSpec} (h : m.Indexed) : decode m.encode = some m := by
  rw [encode_eq]
  simp [decode, slots, Node.fields?, fieldOr_self, fieldOr_of_ne, Node.number?, h.row, h.col,
    h.rows, h.cols]

end MergeSpec

theorem Color.decode_encode {color : Color} (h : ∃ s, parse s = .ok color) :
    Node.optional? decode color.encode = some (some color) := by
  obtain ⟨s, hs⟩ := h
  have hback : parse? color.text = some color := parse_eq_ok_iff.mp (parse_text hs)
  simp [Node.optional?, encode, decode, hback]

namespace CellStyle

def slots (s : CellStyle) : List (String × Option Node) :=
  [("bold", s.bold.map .flag), ("italic", s.italic.map .flag),
    ("halign", s.halign.map fun h => .text h.name), ("valign", s.valign.map fun v => .text v.name),
    ("fg_color", s.foreground.map Color.encode), ("bg_color", s.background.map Color.encode)]

theorem encodeFields_eq (s : CellStyle) : s.encodeFields = present s.slots := by
  simp only [encodeFields, slots, optionalField_eq, present_cons]
  simp [present]

theorem fits_slots (s : CellStyle) : Fits c partShapes s.slots :=
  .cons ⟨rfl, keeps_map keeps_flag⟩ <| .cons ⟨rfl, keeps_map keeps_flag⟩ <|
    .cons ⟨rfl, keeps_map fun _ => keeps_word _ _⟩ <|
    .cons ⟨rfl, keeps_map fun _ => keeps_word _ _⟩ <|
    .cons ⟨rfl, keeps_map fun _ => keeps_text _⟩ <|
    .cons ⟨rfl, keeps_map fun _ => keeps_text _⟩ .nil

theorem elim_name {α : Type} {name : α → String} {ofWord? : String → Option α}
    (h : ∀ a, ofWord? (name a) = some a) (value : Option α) :
    (value.map fun a => Node.text (name a)).elim (some none)
      (Node.optional? (Node.word? ofWord?)) = some value :=
  elim_optional fun a _ => by simp [Node.optional?, Node.word?_text, h]

theorem decodeFields_slots {s : CellStyle} (h : s.ParsedColors) :
    decodeFields (present s.slots) = some s := by
  have hfg := elim_optional fun color hc => Color.decode_encode (h.foreground color hc)
  have hbg := elim_optional fun color hc => Color.decode_encode (h.background color hc)
  simp [decodeFields, partOf, slots, fieldOr_self, fieldOr_of_ne, elim_flag,
    elim_name HAlign.ofWord?_name, elim_name VAlign.ofWord?_name, hfg, hbg, -Option.elim_map]

end CellStyle

namespace StyleSpec

/-- The place of the style is given by machine words, and its colours have been parsed. -/
structure Storable (s : StyleSpec) : Prop where
  row : s.row ≤ maxIndex
  col : s.col ≤ maxIndex
  colors : s.style.ParsedColors

def place (s : StyleSpec) : List (String × Option Node) :=
  [("row", some (.number s.row)), ("col", some (.number s.col))]

theorem encode_eq (s : StyleSpec) : s.encode = .record (present (s.place ++ s.style.slots)) := by
  rw [encode, CellStyle.encodeFields_eq]
  rfl

/-- Neither the place nor a part of the style is nested. -/
theorem flat_of_mem {s : StyleSpec} {field : String × Node}
    (h : field ∈ present (s.place ++ s.style.slots)) :
    field.2.isReadable = true ∧ field.2.nesting = 0 := by
  obtain ⟨name, node⟩ := field
  have hslot := mem_present.mp h
  simp only [place, CellStyle.slots, Color.encode, List.cons_append, List.nil_append,
    List.mem_cons, Prod.mk.injEq, List.not_mem_nil, or_false, Option.some.injEq,
    eq_comm (a := some node), Option.map_eq_some_iff] at hslot
  rcases hslot with ⟨-, rfl⟩ | ⟨-, rfl⟩ | ⟨-, _, -, rfl⟩ | ⟨-, _, -, rfl⟩ | ⟨-, _, -, rfl⟩ |
    ⟨-, _, -, rfl⟩ | ⟨-, _, -, rfl⟩ | ⟨-, _, -, rfl⟩ <;> exact ⟨rfl, rfl⟩

theorem keeps_encode (s : StyleSpec) : Keeps c shape s.encode := by
  rw [encode_eq]
  exact Fits.entry (.cons ⟨rfl, keeps_some (keeps_number _)⟩ <|
    .cons ⟨rfl, keeps_some (keeps_number _)⟩ .nil) s.style.fits_slots (by decide)
    fun field hfield => flat_of_mem hfield

theorem decode_encode {s : StyleSpec} (h : s.Storable) : decode s.encode = some s := by
  rw [encode_eq]
  have hstyle : CellStyle.decodeFields (present (s.place ++ s.style.slots)) = some s.style := by
    rw [← CellStyle.decodeFields_slots h.colors]
    simp [CellStyle.decodeFields, CellStyle.partOf, place, fieldOr_of_ne]
  simp [decode, Node.fields?, hstyle]
  simp [place, CellStyle.slots, fieldOr_self, fieldOr_of_ne, Node.number?, h.row, h.col]

end StyleSpec

namespace TableDocument

variable {d : TableDocument}

/-- The numbers of the document are machine words, and its colours have been parsed. -/
structure Storable (d : TableDocument) : Prop where
  merges : ∀ m ∈ d.merges, m.Indexed
  styles : ∀ s ∈ d.styles, s.Storable

def slots (d : TableDocument) : List (String × Option Node) :=
  [("dialect", some (.text d.dialect.name)),
    ("rows", some (.list (d.rows.map fun row => .list (row.map .text)))),
    ("options", some d.options.encode), ("columns", listValue ColumnSpec.encode d.columns),
    ("merges", listValue MergeSpec.encode d.merges),
    ("styles", listValue StyleSpec.encode d.styles)]

theorem encode_eq (d : TableDocument) : d.encode = .record (present d.slots) := by
  simp only [encode, encodeFields, slots, listField_eq, present_cons]
  simp [present]

theorem keeps_encode (d : TableDocument) : Keeps c shape d.encode := by
  rw [encode_eq]
  exact Fits.record (.cons ⟨rfl, keeps_some (keeps_word _ _)⟩ <|
    .cons ⟨rfl, keeps_some (keeps_list fun _ _ => keeps_list fun _ _ => keeps_text _)⟩ <|
    .cons ⟨rfl, keeps_some (TableOptions.keeps_encode _)⟩ <|
    .cons ⟨rfl, keeps_listValue ColumnSpec.keeps_encode⟩ <|
    .cons ⟨rfl, keeps_listValue MergeSpec.keeps_encode⟩ <|
    .cons ⟨rfl, keeps_listValue StyleSpec.keeps_encode⟩ .nil) (by decide)

theorem decode_encode (h : d.Storable) : decode d.encode = some d := by
  have hrows : decodeList (decodeList Node.text?)
      (.list (d.rows.map fun row => .list (row.map .text))) = some d.rows :=
    decodeList_map fun row _ => decodeList_map fun text _ => rfl
  have hcolumns := elim_list fun s (_ : s ∈ d.columns) => ColumnSpec.decode_encode s
  have hmerges := elim_list fun m hm => MergeSpec.decode_encode (h.merges m hm)
  have hstyles := elim_list fun s hs => StyleSpec.decode_encode (h.styles s hs)
  rw [encode_eq]
  simp [decode, slots, Node.fields?, fieldOr_self, fieldOr_of_ne, Node.word?_text, hrows,
    TableOptions.decode_encode, hcolumns, hmerges, hstyles]

/-- The tree of a document is of the shape of a document, whatever the conventions of the text
format, and it is read as the document. -/
theorem encoded_read_back (h : d.Storable) (c : Conventions) :
    shape.settle c d.encode = some d.encode ∧ decode d.encode = some d :=
  ⟨keeps_encode d, decode_encode h⟩

theorem encoded_read_back_styled :
    let d : TableDocument :=
      { dialect := .rules, rows := [["a", ""], []], options := { caption := some "" },
        columns := [⟨.flexibleFixed, some "wide"⟩, ⟨.center, none⟩], merges := [⟨0, 0, 2, 0⟩],
        styles := [⟨0, 1, ⟨some false, none, some .justify, none, some (.html "00AAFF"),
          some (.named "red!30")⟩⟩] }
    d.Storable ∧ shape.settle Conventions.parts d.encode = some d.encode ∧
      decode d.encode = some d := by
  intro d
  have hmerge : MergeSpec.Indexed ⟨0, 0, 2, 0⟩ := by constructor <;> decide
  have hcolors : CellStyle.ParsedColors ⟨some false, none, some .justify, none,
      some (.html "00AAFF"), some (.named "red!30")⟩ := by
    constructor
    · rintro _ ⟨⟩
      exact ⟨" #00aaff", by decide +kernel⟩
    · rintro _ ⟨⟩
      exact ⟨"red!30", by decide +kernel⟩
  have hstorable : d.Storable := by
    constructor
    · exact List.forall_mem_singleton.mpr hmerge
    · exact List.forall_mem_singleton.mpr ⟨by decide, by decide, hcolors⟩
  exact ⟨hstorable, encoded_read_back hstorable _⟩

end TableDocument
end LatexTable
