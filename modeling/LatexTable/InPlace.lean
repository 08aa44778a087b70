import LatexTable.Error
/-!
Operations that change a state in place. An operation that is refused keeps the changes that it has
made before it was.
-/
namespace LatexTable

/-- A computation on a state that can be refused. -/
abbrev InPlace (σ : Type) := ExceptT TableError (StateM σ)

namespace InPlace

variable {σ τ α : Type}

/-- The answer of a computation, and the state that it leaves. -/
def perform (s : σ) (op : InPlace σ α) : TableResult α × σ := op s

/-- Goes on with the answer of a question about the state. -/
def ask (question : σ → TableResult α) : InPlace σ α := fun s => (question s, s)

/-- Goes on with what another operation answers and leaves. -/
def call (op : σ → TableResult α × σ) : InPlace σ α := op

/-- Goes on with what an operation on a part of the state answers and leaves. -/
def part (get : τ → σ) (put : τ → σ → τ) (op : σ → TableResult α × σ) : InPlace τ α := fun t =>
  let (answer, s) := op (get t)
  (answer, put t s)

/-- The state that an operation leaves which is not refused. -/
def changed (left : TableResult Unit × σ) : TableResult σ := left.1.map fun _ => left.2

/-- The state that an operation leaves which is not refused, and its answer. -/
def answered (left : TableResult α × σ) : TableResult (σ × α) := left.1.map fun a => (left.2, a)

/-- An operation without the value that it answers. -/
def silent (left : TableResult α × σ) : TableResult Unit × σ := (left.1.map fun _ => (), left.2)

end InPlace
end LatexTable
