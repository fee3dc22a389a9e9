import RequestPlan.Parameters
import RequestPlan.Settings
import RequestPlan.Plan

/-!
# Pages and offsets

* `PageRequest`: the rows that a request asks for, by page or by offset.
* `PageRequest.ofParams`: a page wins over an offset, and the first page stands for nothing.
* `PageRequest.window`: the rows, no more than the settings allow.
-/

namespace RequestPlan

/-- The rows that a request asks for. -/
inductive PageRequest where
  /-- A page, counted from one. -/
  | page (number : Int64) (size : Option UInt64)
  /-- The rows behind an offset. -/
  | offset (skip : UInt64) (size : Option UInt64)
deriving DecidableEq, Repr

/-- The integer that a value names; fractions are cut off. -/
def Value.whole? : Value → Option Int64
  | .int n => some n
  | .float x => some x.toInt64
  | .string s =>
    let t := Text.trim s
    match Decimal.readInt64? t with
    | some n => some n
    | none => (Decimal.readFloat? t).map Float.toInt64
  | _ => none

/-- The natural number nearest to an integer. -/
def clampToWord (n : Int64) : UInt64 := UInt64.ofNat n.toInt.toNat

namespace PageRequest

/-- The rows that parameters ask for. A page that cannot be read is the first. -/
def ofParams (names : ParameterNames) (ps : Params) : PageRequest :=
  let size := ((ps.first? names.pageSize).bind Value.whole?).map clampToWord
  match ps.first? names.page with
  | some v => .page (v.whole?.getD 1) size
  | none =>
    match (ps.first? names.skip).bind Value.whole? with
    | some skip => .offset (clampToWord skip) size
    | none => .page 1 size

/-- The rows of a request. -/
def window (settings : Settings) : PageRequest → Except Error Window
  | .page number size =>
    match Window.ofPage number (settings.clampPageSize size) with
    | .ok w => .ok w
    | .error e => .error (.plan e)
  | .offset skip size => .ok ⟨skip, settings.clampPageSize size⟩

end PageRequest
end RequestPlan
