import TapeMachine.Instruction

/-!
# Rust statements

Every instruction becomes one statement on a line of its own. A move looks its cell up although
it does not use it, so that leaving the tape panics there and not later.
-/

namespace TapeMachine

/-- The exit status with which a generated program reports that its input is used up. -/
def inputExhaustedStatus : Int := 10

namespace Rust

/-- A statement without control flow. -/
inductive Effect where
  | forward (count : Nat)
  | backward (count : Nat)
  | increase (amount : UInt8)
  | emit
  | take
deriving DecidableEq

inductive Statement where
  | effect (e : Effect)
  | openLoop
  | closeLoop
deriving DecidableEq

namespace Effect

def text : Effect → String
  | .forward n => s!"_p = _p.wrapping_add({n}); let _ = &_m[_p];"
  | .backward n => s!"_p = _p.wrapping_sub({n}); let _ = &_m[_p];"
  | .increase b => s!"_m[_p] += Wrapping({b.toNat}u8);"
  | .emit => "_o.push(_m[_p].0);"
  | .take =>
    "_m[_p] = Wrapping(match _i.get(_b) \x7b Some(c) => \x7b _b += 1; *c \x7d " ++
    "None => std::process::exit(" ++ toString inputExhaustedStatus ++ ") \x7d);"

end Effect

namespace Statement

/-- The statement for an instruction. Additions count modulo 256. -/
def ofInstruction : Instruction → Statement
  | .moveBy d => .effect (if 0 ≤ d then .forward d.natAbs else .backward d.natAbs)
  | .addBy d => .effect (.increase (UInt8.ofInt d))
  | .print => .effect .emit
  | .read => .effect .take
  | .loopStart => .openLoop
  | .loopEnd => .closeLoop

def text : Statement → String
  | .effect e => e.text
  | .openLoop => "while _m[_p].0 != 0 \x7b"
  | .closeLoop => "\x7d"

end Statement

end Rust

end TapeMachine
