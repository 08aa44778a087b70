import LatexTable.Document.Codec
import Mathlib.Data.List.Basic
/-!
Records with fields that may be left out. A record is given by its slots: every name with the value
that stands under it, if there is one. Reading a field looks up its slot, and a record whose slots
stand in the order of a shape settles into itself.
-/
namespace LatexTable

/-- The fields of a record that have a value. -/
def present (slots : List (String × Option Node)) : List (String × Node) :=
  slots.filterMap fun slot => slot.2.map (slot.1, ·)

/-- The value of a list, which is left out when it is empty. -/
def listValue {α : Type} (encode : α → Node) (items : List α) : Option Node :=
  if items.isEmpty then none else some (.list (items.map encode))

variable {α β γ : Type} {name other : String} {value : Option Node} {default : Option α}
  {slots slots' : List (String × Option Node)} {read : Node → Option α} {encode : α → Node}
  {items : List α} {a : Option α} {field : String × Node}

section Fields

theorem present_cons (name : String) (value : Option Node) (slots : List (String × Option Node)) :
    present ((name, value) :: slots) = (value.map (name, ·)).toList ++ present slots := by
  cases value <;> simp [present]

theorem present_append : present (slots ++ slots') = present slots ++ present slots' :=
  List.filterMap_append

theorem mem_present : field ∈ present slots ↔ (field.1, some field.2) ∈ slots := by
  simp only [present, List.mem_filterMap, Option.map_eq_some_iff]
  constructor
  · rintro ⟨⟨name, value⟩, hslot, node, rfl, rfl⟩
    exact hslot
  · exact fun h => ⟨_, h, field.2, rfl, rfl⟩

theorem optionalField_eq (name : String) (encode : α → Node) (a : Option α) :
    optionalField name encode a = present [(name, a.map encode)] := by
  cases a <;> rfl

theorem listField_eq (name : String) (encode : α → Node) (items : List α) :
    TableDocument.listField name encode items = present [(name, listValue encode items)] := by
  cases items <;> rfl

theorem notMem_names (h : name ∉ slots.map Prod.fst) : ∀ field ∈ present slots, field.1 ≠ name := by
  rintro field hfield rfl
  exact h (List.mem_map.mpr ⟨_, mem_present.mp hfield, rfl⟩)

/-- Under distinct names a name finds its own field only. -/
theorem filter_present (hn : (slots.map Prod.fst).Nodup) (h : (name, value) ∈ slots) :
    (present slots).filter (·.1 = name) = (value.map (name, ·)).toList := by
  induction slots with
  | nil => cases h
  | cons slot slots ih =>
    obtain ⟨other, v⟩ := slot
    rw [List.map_cons, List.nodup_cons] at hn
    rw [present_cons, List.filter_append]
    rcases List.mem_cons.mp h with heq | hmem
    · cases heq
      have hrest : (present slots).filter (·.1 = name) = [] := by
        rw [List.filter_eq_nil_iff]
        intro field hfield
        simpa using notMem_names hn.1 field hfield
      rw [hrest, List.append_nil]
      cases value <;> simp
    · have hne : other ≠ name := by
        rintro rfl
        exact hn.1 (List.mem_map.mpr ⟨_, hmem, rfl⟩)
      rw [ih hn.2 hmem]
      cases v <;> simp [hne]

/-- A slot without a value is read as the default of its field. -/
theorem fieldOr_self (h : name ∉ slots.map Prod.fst) :
    fieldOr (present ((name, value) :: slots)) name default read = value.elim default read := by
  have hnone : (present slots).lookup name = none := by
    rw [List.lookup_eq_none_iff]
    intro field hfield
    rw [bne_iff_ne]
    exact (notMem_names h field hfield).symm
  rw [fieldOr, present_cons, List.lookup_append, hnone]
  cases value <;> simp

theorem fieldOr_of_ne (h : name ≠ other) :
    fieldOr (present ((other, value) :: slots)) name default read =
      fieldOr (present slots) name default read := by
  have hne : (name == other) = false := beq_eq_false_iff_ne.mpr h
  rw [fieldOr, fieldOr, present_cons, List.lookup_append]
  cases value <;> simp [List.lookup_cons, hne]

end Fields

section Values

/-- Reading gives back what writing an optional value has left out. -/
theorem elim_optional (h : ∀ b, a = some b → Node.optional? read (encode b) = some (some b)) :
    (a.map encode).elim (some none) (Node.optional? read) = some a := by
  cases a with
  | none => rfl
  | some b => exact h b rfl

theorem elim_text (text : Option String) :
    (text.map Node.text).elim (some none) (Node.optional? Node.text?) = some text :=
  elim_optional fun _ _ => rfl

theorem elim_flag (flag : Option Bool) :
    (flag.map Node.flag).elim (some none) (Node.optional? Node.flag?) = some flag :=
  elim_optional fun _ _ => rfl

theorem mapM_map_eq_some {as : List α} {f : β → Option γ} {g : α → β} {k : α → γ}
    (h : ∀ a ∈ as, f (g a) = some (k a)) : (as.map g).mapM f = some (as.map k) := by
  induction as with
  | nil => rfl
  | cons a as ih =>
    rw [List.forall_mem_cons] at h
    simp [h.1, ih h.2]

theorem decodeList_map (h : ∀ b ∈ items, read (encode b) = some b) :
    TableDocument.decodeList read (.list (items.map encode)) = some items := by
  have hmap := mapM_map_eq_some (k := id) h
  simpa [TableDocument.decodeList, Node.list?] using hmap

theorem elim_list (h : ∀ b ∈ items, read (encode b) = some b) :
    (listValue encode items).elim (some []) (TableDocument.decodeList read) = some items := by
  unfold listValue
  split
  next hempty =>
    rw [List.isEmpty_iff.mp hempty]
    rfl
  next => exact decodeList_map h

end Values

namespace Shape

variable {c : Conventions} {shape : Shape} {node : Node} {shapes : List (String × Shape)}
  {nodes : List Node}

attribute [local simp] settle settleFields

/-- The value is of the shape, so settling leaves it as it is. -/
def Keeps (c : Conventions) (shape : Shape) (node : Node) : Prop := shape.settle c node = some node

/-- Every slot stands under the name of its shape, and its value is of the shape. -/
def Fits (c : Conventions) : List (String × Shape) → List (String × Option Node) → Prop :=
  List.Forall₂ fun shape slot => slot.1 = shape.1 ∧ ∀ node ∈ slot.2, Keeps c shape.2 node

theorem keeps_text (s : String) : Keeps c .text (.text s) := by rw [Keeps, settle]

theorem keeps_flag (b : Bool) : Keeps c .flag (.flag b) := by rw [Keeps, settle]

theorem keeps_number (n : Nat) : Keeps c .number (.number n) := by rw [Keeps, settle]

theorem keeps_word (choice : List String) (s : String) : Keeps c (.word choice) (.text s) := by
  rw [Keeps, settle]

theorem Keeps.optional (h : Keeps c shape node) : Keeps c (.optional shape) node := by
  cases node with
  | null => rfl
  | flag | number | text | foreign | unreadable | list | record =>
    rw [Keeps, settle]
    · exact h
    · nofun

theorem keeps_list (h : ∀ b ∈ items, Keeps c shape (encode b)) :
    Keeps c (.list shape) (.list (items.map encode)) := by
  have hmap : (items.map encode).mapM (settle c shape) = some (items.map encode) :=
    mapM_map_eq_some h
  rw [Keeps, settle, hmap]
  rfl

/-- A slot that always has a value. -/
theorem keeps_some (h : Keeps c shape node) : ∀ n ∈ some node, Keeps c shape n := by
  rintro _ ⟨⟩
  exact h

/-- A slot for an optional value. -/
theorem keeps_map (h : ∀ b, Keeps c shape (encode b)) :
    ∀ n ∈ a.map encode, Keeps c (.optional shape) n := by
  intro n hn
  obtain ⟨b, -, rfl⟩ := Option.map_eq_some_iff.mp hn
  exact (h b).optional

/-- A slot for a list. -/
theorem keeps_listValue (h : ∀ b, Keeps c shape (encode b)) :
    ∀ n ∈ listValue encode items, Keeps c (.list shape) n := by
  intro n hn
  unfold listValue at hn
  split at hn
  · cases hn
  · cases hn
    exact keeps_list fun b _ => h b

theorem Fits.names (h : Fits c shapes slots) : slots.map Prod.fst = shapes.map Prod.fst := by
  induction h with
  | nil => rfl
  | cons hhead _ ih => rw [List.map_cons, List.map_cons, hhead.1, ih]

/-- Fields among which every name finds its own slot settle into the slots. -/
theorem Fits.settleFields {fields : List (String × Node)} (h : Fits c shapes slots)
    (hf : ∀ name value, (name, value) ∈ slots →
      fields.filter (·.1 = name) = (value.map (name, ·)).toList) :
    Shape.settleFields c shapes fields = some (present slots) := by
  induction h with
  | nil => simp [Shape.settleFields, present]
  | @cons shape slot shapes slots hhead _ ih =>
    obtain ⟨name, shape⟩ := shape
    obtain ⟨_, value⟩ := slot
    obtain ⟨rfl, hkeeps⟩ := hhead
    have hrest := ih fun name value hmem => hf name value (List.mem_cons_of_mem _ hmem)
    rw [Shape.settleFields, hrest, hf _ value List.mem_cons_self, present_cons]
    cases value with
    | none => rfl
    | some node =>
      have hnode : settle c shape node = some node := hkeeps node rfl
      simp [hnode]

theorem Fits.record (h : Fits c shapes slots) (hn : (shapes.map Prod.fst).Nodup) :
    Keeps c (.record shapes) (.record (present slots)) := by
  rw [← h.names] at hn
  rw [Keeps, settle, h.settleFields fun name value => filter_present hn]
  rfl

theorem fieldsReadable_eq_true {fields : List (String × Node)}
    (h : ∀ field ∈ fields, field.2.isReadable = true) : Node.fieldsReadable fields = true := by
  induction fields with
  | nil => rw [Node.fieldsReadable]
  | cons field fields ih =>
    rw [List.forall_mem_cons] at h
    rw [Node.fieldsReadable, h.1, ih h.2]
    rfl

theorem nestingOfFields_eq_zero {fields : List (String × Node)}
    (h : ∀ field ∈ fields, field.2.nesting = 0) : Node.nestingOfFields fields = 0 := by
  induction fields with
  | nil => rw [Node.nestingOfFields]
  | cons field fields ih =>
    rw [List.forall_mem_cons] at h
    rw [Node.nestingOfFields, h.1, ih h.2]
    rfl

/-- The own fields of an entry and its parts are looked up among the same fields. -/
theorem Fits.entry {parts : List (String × Shape)} (h : Fits c shapes slots)
    (hparts : Fits .parts parts slots') (hn : ((shapes ++ parts).map Prod.fst).Nodup)
    (hflat : ∀ field ∈ present (slots ++ slots'),
      field.2.isReadable = true ∧ field.2.nesting = 0) :
    Keeps c (.entry shapes parts) (.record (present (slots ++ slots'))) := by
  rw [List.map_append, ← h.names, ← hparts.names, ← List.map_append] at hn
  have hreadable := fieldsReadable_eq_true fun field hfield => (hflat field hfield).1
  have hnesting := nestingOfFields_eq_zero fun field hfield => (hflat field hfield).2
  have hown := h.settleFields fun name value hmem =>
    filter_present hn (List.mem_append_left slots' hmem)
  have hpart := hparts.settleFields fun name value hmem =>
    filter_present hn (List.mem_append_right slots hmem)
  rw [Keeps, settle, hreadable, hnesting, hown, hpart, present_append]
  simp

end Shape
end LatexTable
