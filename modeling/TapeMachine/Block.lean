/-!
# Blocks

A block is a sequence of leaves and loops. Its meaning is one big-step relation for any kind of
leaf: a loop tests the state on entry and after every run of its body. The relation counts a step
per leaf and a step per test, which is what a flat machine takes for the same block. Leaves can
fail, and so can tests.
-/

namespace TapeMachine

inductive Block (α : Type) where
  | done
  | leaf (a : α) (rest : Block α)
  | loop (body rest : Block α)
deriving DecidableEq

namespace Block

variable {α β σ ε : Type}

/-- The flat form, in which every loop stands between two markers. -/
def flatten (leaf : α → β) (start stop : β) : Block α → List β
  | .done => []
  | .leaf a rest => leaf a :: flatten leaf start stop rest
  | .loop body rest =>
    start :: flatten leaf start stop body ++ stop :: flatten leaf start stop rest

def length : Block α → Nat
  | .done => 0
  | .leaf _ rest => rest.length + 1
  | .loop body rest => body.length + rest.length + 2

theorem length_flatten (leaf : α → β) (start stop : β) (b : Block α) :
    (b.flatten leaf start stop).length = b.length := by
  induction b with
  | done => rfl
  | leaf a rest ih => simp [flatten, length, ih]
  | loop body rest ihb ihr => simp [flatten, length, ihb, ihr]; omega

/-- Every leaf with its index in the flat form, which starts at index `n`. -/
def indexed : Nat → Block α → Block (Nat × α)
  | _, .done => .done
  | n, .leaf a rest => .leaf (n, a) (indexed (n + 1) rest)
  | n, .loop body rest => .loop (indexed (n + 1) body) (indexed (n + body.length + 2) rest)

def map (f : α → β) : Block α → Block β
  | .done => .done
  | .leaf a rest => .leaf (f a) (rest.map f)
  | .loop body rest => .loop (body.map f) (rest.map f)

/-- `Eval step test b s n r` says that block `b`, started in state `s`, comes to the result `r`
after `n` completed steps: one for every leaf, one for every loop entered or skipped, and one for
every completed run of a body, when the loop is tested again. A block that never ends has no
result. -/
inductive Eval (step : α → σ → Except ε σ) (test : σ → Except ε Bool) :
    Block α → σ → Nat → Except ε σ → Prop where
  | done (s : σ) : Eval step test .done s 0 (.ok s)
  | leaf {a : α} {rest : Block α} {s t : σ} {n : Nat} {r : Except ε σ}
      (first : step a s = .ok t) (next : Eval step test rest t n r) :
      Eval step test (.leaf a rest) s (n + 1) r
  | fail {a : α} {rest : Block α} {s : σ} {e : ε} (first : step a s = .error e) :
      Eval step test (.leaf a rest) s 0 (.error e)
  | leave {body rest : Block α} {s : σ} {n : Nat} {r : Except ε σ}
      (closed : test s = .ok false) (next : Eval step test rest s n r) :
      Eval step test (.loop body rest) s (n + 1) r
  | enter {body rest : Block α} {s t : σ} {n k : Nat} {r : Except ε σ}
      (opened : test s = .ok true) (once : Eval step test body s k (.ok t))
      (again : Eval step test (.loop body rest) t n r) :
      Eval step test (.loop body rest) s (n + k + 1) r
  | broken {body rest : Block α} {s : σ} {k : Nat} {e : ε}
      (opened : test s = .ok true) (once : Eval step test body s k (.error e)) :
      Eval step test (.loop body rest) s (k + 1) (.error e)
  | refused {body rest : Block α} {s : σ} {e : ε} (failed : test s = .error e) :
      Eval step test (.loop body rest) s 0 (.error e)

end Block

end TapeMachine
