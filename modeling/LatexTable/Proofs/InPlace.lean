import LatexTable.InPlace
import LatexTable.Proofs.Result
/-!
What operations in place answer and leave. An operation that asks all its questions before its first
change leaves the state as it was when it is refused; a second operation behind the first one can be
refused too late for that.
-/
namespace LatexTable.InPlace
open Result

variable {σ τ α β : Type} {s t : σ} {a : α} {err : TableError} {left : TableResult α × σ}
  {question : σ → TableResult α} {rest : α → InPlace σ β}

theorem perform_bind {op : InPlace σ α} : perform s (op >>= rest) =
    match perform s op with
    | (.ok a, t) => perform t (rest a)
    | (.error err, t) => (.error err, t) := by
  show (match op s with | (answer, t) => ExceptT.bindCont rest answer t) = _
  rw [perform]
  cases op s with
  | mk answer t => cases answer <;> rfl

theorem perform_ask_bind : perform s (ask question >>= rest) =
    match question s with
    | .ok a => perform s (rest a)
    | .error err => (.error err, s) := by
  rw [perform_bind, perform, ask]
  cases question s <;> rfl

theorem perform_call {op : σ → TableResult α × σ} : perform s (call op) = op s := rfl

theorem perform_modify {f : σ → σ} : perform s (modify f) = (.ok (), f s) := rfl

theorem perform_part {get : τ → σ} {put : τ → σ → τ} {op : σ → TableResult α × σ} {t : τ} :
    perform t (part get put op) = ((op (get t)).1, put t (op (get t)).2) := rfl

section Answers

theorem changed_eq_ok_iff {left : TableResult Unit × σ} :
    changed left = .ok t ↔ left = (.ok (), t) := by
  obtain ⟨_ | _, u⟩ := left <;> simp [changed, Except.map]

theorem changed_eq_error_iff {left : TableResult Unit × σ} :
    changed left = .error err ↔ left.1 = .error err := map_eq_error

theorem changed_silent_eq_ok_iff :
    changed (silent left) = .ok t ↔ ∃ a, answered left = .ok (t, a) := by
  obtain ⟨_ | _, u⟩ := left <;> simp [changed, silent, answered, Except.map]

theorem changed_silent_eq_error_iff :
    changed (silent left) = .error err ↔ answered left = .error err := by
  obtain ⟨_ | _, u⟩ := left <;> simp [changed, silent, answered, Except.map]

theorem changed_ask_bind {rest : α → InPlace σ Unit} :
    changed (perform s (ask question >>= rest)) =
      question s >>= fun a => changed (perform s (rest a)) := by
  rw [perform_ask_bind]
  cases question s <;> rfl

theorem answered_ask_bind : answered (perform s (ask question >>= rest)) =
    question s >>= fun a => answered (perform s (rest a)) := by
  rw [perform_ask_bind]
  cases question s <;> rfl

section Part

variable {get : τ → σ} {put : τ → σ → τ} {t : τ}

theorem changed_part {op : σ → TableResult Unit × σ} :
    changed (perform t (part get put op)) = changed (op (get t)) >>= fun s => pure (put t s) := by
  rw [perform_part]
  cases op (get t) with
  | mk answer s => cases answer <;> rfl

theorem changed_part_bind {op : σ → TableResult Unit × σ} {rest : Unit → InPlace τ Unit} :
    changed (perform t (part get put op >>= rest)) =
      changed (op (get t)) >>= fun s => changed (perform (put t s) (rest ())) := by
  rw [perform_bind, perform_part]
  cases op (get t) with
  | mk answer s => cases answer <;> rfl

theorem answered_part {op : σ → TableResult α × σ} :
    answered (perform t (part get put op)) =
      answered (op (get t)) >>= fun (s, a) => pure (put t s, a) := by
  rw [perform_part]
  cases op (get t) with
  | mk answer s => cases answer <;> rfl

end Part

end Answers

/-- A refusal leaves the state as it was. -/
def Atomic (s : σ) (left : TableResult α × σ) : Prop := ∀ err, left.1 = .error err → left.2 = s

namespace Atomic

theorem of_ok : Atomic s (.ok a, t) := nofun

theorem of_error : Atomic s ((.error err, s) : TableResult α × σ) := fun _ _ => rfl

theorem ask_bind (h : ∀ a, question s = .ok a → Atomic s (perform s (rest a))) :
    Atomic s (perform s (ask question >>= rest)) := by
  rw [perform_ask_bind]
  cases hquestion : question s with
  | ok a => exact h a hquestion
  | error err => exact .of_error

theorem part {get : τ → σ} {put : τ → σ → τ} {op : σ → TableResult α × σ} {t : τ}
    (hput : put t (get t) = t) (h : Atomic (get t) (op (get t))) :
    Atomic t (perform t (.part get put op)) := by
  intro err herr
  have hsame : put t (op (get t)).2 = put t (get t) := congrArg (put t) (h err herr)
  exact hsame.trans hput

/-- An operation on a part can be followed by one that is not refused any more. -/
theorem part_bind {get : τ → σ} {put : τ → σ → τ} {op : σ → TableResult α × σ} {t : τ}
    {rest : α → InPlace τ β} (hput : put t (get t) = t) (h : Atomic (get t) (op (get t)))
    (hrest : ∀ a s, op (get t) = (.ok a, s) → ∃ b, (perform (put t s) (rest a)).1 = .ok b) :
    Atomic t (perform t (.part get put op >>= rest)) := by
  rw [perform_bind, perform_part]
  cases hop : op (get t) with
  | mk answer s =>
    cases answer with
    | ok a =>
      obtain ⟨b, hb⟩ := hrest a s hop
      exact fun err herr => nomatch hb.symm.trans herr
    | error err =>
      have hs : s = get t := by simpa [hop] using h err (by rw [hop])
      rw [hs, hput]
      exact .of_error

theorem silent (h : Atomic s left) : Atomic s (silent left) := fun err herr =>
  h err (map_eq_error.mp herr)

/-- What an operation leaves is the state before it or the changed one. -/
theorem cases {left : TableResult Unit × σ} {P : σ → Prop} (h : Atomic s left) (hs : P s)
    (hchanged : ∀ t, changed left = .ok t → P t) : P left.2 := by
  cases hanswer : left.1 with
  | ok _ => exact hchanged _ (by rw [changed, hanswer]; rfl)
  | error err => rwa [h err hanswer]

end Atomic

/-- What holds of the state before a computation holds behind it, be it refused or not. -/
def Keeps (P : σ → Prop) (op : InPlace σ α) : Prop := ∀ s, P s → P (perform s op).2

theorem Keeps.bind {P : σ → Prop} {op : InPlace σ α} (h : Keeps P op)
    (hrest : ∀ a, Keeps P (rest a)) : Keeps P (op >>= rest) := by
  intro s hs
  have hmiddle := h s hs
  rw [perform_bind]
  cases hop : perform s op with
  | mk answer t =>
    rw [hop] at hmiddle
    cases answer with
    | ok a => exact hrest a t hmiddle
    | error err => exact hmiddle
end LatexTable.InPlace
