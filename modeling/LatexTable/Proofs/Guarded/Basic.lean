import LatexTable.Proofs.InPlace
import Mathlib.Tactic.Common
/-!
Computations on machine numbers. A number past the largest index, a difference of indices below
zero, an access outside a store and a counter out of its range are faults, and a fault ends the
computation. A guarded computation that gives a value has met none of them on its way.
-/
namespace LatexTable

inductive MachineFault where
  | tooLarge (n : Nat)
  | negative (a b : Nat)
  | outside (index size : Nat)
  | noWidth
  | uncounted (n : Int)
  deriving DecidableEq, Repr

abbrev Guarded := Except MachineFault

namespace Guarded

variable {α β σ : Type} {a b n : Nat}

/-- A number that has to be an index. -/
def index (n : Nat) : Guarded Nat := if n ≤ maxIndex then .ok n else .error (.tooLarge n)

def add (a b : Nat) : Guarded Nat := index (a + b)

def mul (a b : Nat) : Guarded Nat := index (a * b)

def sub (a b : Nat) : Guarded Nat := if b ≤ a then .ok (a - b) else .error (.negative a b)

/-- A number in the range of a counter, which has 32 bits. -/
def counted (n : Int) : Guarded Int :=
  if -2147483648 ≤ n ∧ n < 2147483648 then .ok n else .error (.uncounted n)

def read (xs : Array α) (i : Nat) : Guarded α :=
  match xs[i]? with
  | some x => .ok x
  | none => .error (.outside i xs.size)

def write (xs : Array α) (i : Nat) (x : α) : Guarded (Array α) :=
  if i < xs.size then .ok (xs.setIfInBounds i x) else .error (.outside i xs.size)

/-- The bounds of a slice are in order and lie in the store. -/
def bounds (start stop size : Nat) : Guarded Unit :=
  if stop < start then .error (.negative stop start)
  else if size < stop then .error (.outside stop size)
  else .ok ()

/-- The elements from `start` to before `stop`. -/
def slice (xs : List α) (start stop : Nat) : Guarded (List α) := do
  bounds start stop xs.length
  return (xs.take stop).drop start

/-- Puts other elements in the place of those from `start` to before `stop`. -/
def splice (xs : List α) (start stop : Nat) (new : List α) : Guarded (List α) := do
  bounds start stop xs.length
  return xs.take start ++ new ++ xs.drop stop

/-- Pieces of `n` elements, the last of which may be shorter. -/
def chunks (n : Nat) (xs : List α) : Guarded (List (List α)) :=
  if n = 0 then .error .noWidth
  else .ok <| (List.range ((xs.length + n - 1) / n)).map fun i => (xs.drop (i * n)).take n

/-- Goes on with the value of an operation; when the operation is refused, so is the whole. -/
def proceed (answer : TableResult α) (rest : α → Guarded (TableResult β)) :
    Guarded (TableResult β) :=
  match answer with
  | .ok x => rest x
  | .error e => .ok (.error e)

/-- Goes on with the value of an operation on a state; when the operation is refused, so is the
whole, and the state is left as it stands. -/
def proceedIn (s : σ) (answer : TableResult α) (rest : α → Guarded (TableResult β × σ)) :
    Guarded (TableResult β × σ) :=
  match answer with
  | .ok x => rest x
  | .error e => .ok (.error e, s)

/-- Goes on with a second operation on the state that the first one leaves. -/
def followedBy (first : Guarded (TableResult Unit × σ))
    (next : σ → Guarded (TableResult Unit × σ)) : Guarded (TableResult Unit × σ) := do
  let (answer, s) ← first
  proceedIn s answer fun _ => next s

@[simp] theorem ok_bind (x : α) (f : α → Guarded β) : (Except.ok x : Guarded α) >>= f = f x := rfl

@[simp] theorem pure_eq (x : α) : (pure x : Guarded α) = .ok x := rfl

theorem index_eq (h : n ≤ maxIndex) : index n = .ok n := if_pos h

theorem add_eq (h : a + b ≤ maxIndex) : add a b = .ok (a + b) := index_eq h

theorem mul_eq (h : a * b ≤ maxIndex) : mul a b = .ok (a * b) := index_eq h

theorem sub_eq (h : b ≤ a) : sub a b = .ok (a - b) := if_pos h

theorem counted_eq {n : Int} (h : -2147483648 ≤ n) (hn : n < 2147483648) : counted n = .ok n :=
  if_pos ⟨h, hn⟩

theorem eq_of_add {c : Nat} (h : add a b = .ok c) : c = a + b := by
  unfold add index at h
  split at h
  · exact (Except.ok.inj h).symm
  · cases h

theorem read_eq {xs : Array α} {x : α} (h : xs[n]? = some x) : read xs n = .ok x := by
  rw [read, h]

theorem write_eq {xs : Array α} (h : n < xs.size) (x : α) :
    write xs n x = .ok (xs.setIfInBounds n x) := if_pos h

theorem bounds_eq (h : a ≤ b) (hn : b ≤ n) : bounds a b n = .ok () := by
  rw [bounds, if_neg (Nat.not_lt.mpr h), if_neg (Nat.not_lt.mpr hn)]

theorem slice_eq {xs : List α} (h : a ≤ b) (hn : b ≤ xs.length) :
    slice xs a b = .ok ((xs.take b).drop a) := by
  rw [slice, bounds_eq h hn]
  rfl

theorem splice_eq {xs : List α} (h : a ≤ b) (hn : b ≤ xs.length) (new : List α) :
    splice xs a b new = .ok (xs.take a ++ new ++ xs.drop b) := by
  rw [splice, bounds_eq h hn]
  rfl

/-- It is enough to go on where the operation is not refused. -/
theorem proceed_eq {answer : TableResult α} {rest : α → Guarded (TableResult β)}
    {f : α → TableResult β} (h : ∀ x, answer = .ok x → rest x = .ok (f x)) :
    proceed answer rest = .ok (answer >>= f) := by
  cases answer with
  | ok x => exact h x rfl
  | error e => rfl

theorem proceedIn_eq (s : σ) (question : σ → TableResult α) {op : α → InPlace σ β}
    {rest : α → Guarded (TableResult β × σ)}
    (h : ∀ x, question s = .ok x → rest x = .ok (InPlace.perform s (op x))) :
    proceedIn s (question s) rest = .ok (InPlace.perform s (InPlace.ask question >>= op)) := by
  rw [InPlace.perform_ask_bind]
  cases hquestion : question s with
  | ok x => exact h x hquestion
  | error e => rfl

theorem followedBy_eq {s : σ} {op : InPlace σ Unit} {rest : Unit → InPlace σ Unit}
    {first : Guarded (TableResult Unit × σ)} {next : σ → Guarded (TableResult Unit × σ)}
    (hfirst : first = .ok (InPlace.perform s op))
    (hnext : ∀ t, next t = .ok (InPlace.perform t (rest ()))) :
    followedBy first next = .ok (InPlace.perform s (op >>= rest)) := by
  rw [followedBy, hfirst, ok_bind, InPlace.perform_bind]
  cases InPlace.perform s op with
  | mk answer t =>
    cases answer with
    | ok _ => exact hnext t
    | error err => rfl

theorem mapM_eq {f : α → Guarded β} {g : α → β} {xs : List α} (h : ∀ x ∈ xs, f x = .ok (g x)) :
    xs.mapM f = .ok (xs.map g) := by
  induction xs with
  | nil => rfl
  | cons x xs ih =>
    have hhead := h x List.mem_cons_self
    have htail := ih fun y hy => h y (List.mem_cons_of_mem x hy)
    rw [List.mapM_cons, hhead, ok_bind, htail]
    rfl

theorem findM?_eq {f : α → Guarded Bool} {p : α → Bool} {xs : List α}
    (h : ∀ x ∈ xs, f x = .ok (p x)) : xs.findM? f = .ok (xs.find? p) := by
  induction xs with
  | nil => rfl
  | cons x xs ih =>
    have hhead := h x List.mem_cons_self
    have htail := ih fun y hy => h y (List.mem_cons_of_mem x hy)
    rw [List.findM?, hhead, ok_bind, List.find?_cons]
    cases p x with
    | true => rfl
    | false => exact htail

theorem findSomeM?_eq {f : α → Guarded (Option β)} {g : α → Option β} {xs : List α}
    (h : ∀ x ∈ xs, f x = .ok (g x)) : xs.findSomeM? f = .ok (xs.findSome? g) := by
  induction xs with
  | nil => rfl
  | cons x xs ih =>
    have hhead := h x List.mem_cons_self
    have htail := ih fun y hy => h y (List.mem_cons_of_mem x hy)
    rw [List.findSomeM?, hhead, ok_bind, List.findSome?_cons]
    cases g x with
    | some y => rfl
    | none => exact htail

theorem anyM_eq {f : α → Guarded Bool} {p : α → Bool} {xs : List α}
    (h : ∀ x ∈ xs, f x = .ok (p x)) : xs.anyM f = .ok (xs.any p) := by
  induction xs with
  | nil => rfl
  | cons x xs ih =>
    have hhead := h x List.mem_cons_self
    have htail := ih fun y hy => h y (List.mem_cons_of_mem x hy)
    rw [List.anyM, hhead, ok_bind, List.any_cons]
    cases p x with
    | true => rfl
    | false => exact htail

/-- A loop whose state is known after any number of rounds. -/
theorem foldlM_eq {f : σ → α → Guarded σ} {s : List α → σ} {l : List α}
    (hstep : ∀ done x rest, l = done ++ x :: rest → f (s done) x = .ok (s (done ++ [x]))) :
    l.foldlM f (s []) = .ok (s l) := by
  -- the invariant speaks of the part that is done, which grows while the rest shrinks
  have hrun (rest done : List α) (hl : l = done ++ rest) :
      rest.foldlM f (s done) = .ok (s l) := by
    induction rest generalizing done with
    | nil => rw [hl, List.append_nil, List.foldlM_nil, pure_eq]
    | cons x rest ih =>
      rw [List.foldlM_cons, hstep done x rest hl, ok_bind]
      exact ih (done ++ [x]) (by rw [hl, List.append_assoc]; rfl)
  exact hrun l [] rfl

end Guarded
end LatexTable
