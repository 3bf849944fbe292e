/-
# What is wrong with bytes that are no text

A text file has to be UTF-8.  Where its bytes are not, the fault is found at the first byte that
no character starts with or continues, and the message names the bytes and the reason.
-/
import PagePlan.Decimal.Digits
import PagePlan.Text.Encoding
import PagePlan.Text.Quoted

namespace PagePlan.Text

/-- Why bytes stand for no character. -/
inductive ByteProblem where
  | invalidStart
  | invalidContinuation
  | unexpectedEnd
deriving DecidableEq, Repr

/-- The wording of a problem with bytes. -/
def ByteProblem.message : ByteProblem → String
  | invalidStart => "invalid start byte"
  | invalidContinuation => "invalid continuation byte"
  | unexpectedEnd => "unexpected end of data"

/-- Bytes that stand for no character. -/
structure ByteFault where
  problem : ByteProblem
  /-- The first of the bytes. -/
  first : UInt8
  /-- How many bytes stand before. -/
  position : Nat
  /-- How many bytes are at fault, at least one. -/
  length : Nat
deriving DecidableEq, Repr

/-- How many bytes follow a first byte; none after a byte that starts no character. -/
def tailLength? (a : UInt8) : Option Nat :=
  let n := a.toNat
  if n < 0x80 then some 0
  else if 0xC2 ≤ n && n < 0xE0 then some 1
  else if 0xE0 ≤ n && n < 0xF0 then some 2
  else if 0xF0 ≤ n && n < 0xF5 then some 3
  else none

/-- Whether a byte can be the second one after a first byte. -/
def isSecond (a b : UInt8) : Bool :=
  let low := if a = 0xE0 then 0xA0 else if a = 0xF0 then 0x90 else 0x80
  let high := if a = 0xED then 0x9F else if a = 0xF4 then 0x8F else 0xBF
  low ≤ b.toNat && b.toNat ≤ high

/-- How many bytes of the front fit together to a character, and whether a byte follows them. -/
def fitting (a : UInt8) (rest : List UInt8) : Nat × Bool :=
  let wanted := (tailLength? a).getD 0
  let tail := match rest.take wanted with
    | [] => []
    | b :: bs => if isSecond a b then b :: bs.takeWhile isTail else []
  (1 + tail.length, decide (tail.length < rest.length))

/-- The fault at the front of bytes that no character starts, some bytes having stood before. -/
def faultAtFront (position : Nat) (a : UInt8) (rest : List UInt8) : ByteFault :=
  if (tailLength? a).isNone then ⟨.invalidStart, a, position, 1⟩
  else
    let (length, more) := fitting a rest
    ⟨if more then .invalidContinuation else .unexpectedEnd, a, position, length⟩

/-- The first fault of bytes; the fuel is the number of bytes. -/
def faultFrom? (position : Nat) : Nat → List UInt8 → Option ByteFault
  | 0, _ => none
  | _, [] => none
  | fuel + 1, bytes@(a :: rest) =>
    match utf8Front? bytes with
    | some (_, after) => faultFrom? (position + (bytes.length - after.length)) fuel after
    | none => some (faultAtFront position a rest)

/-- The first fault of bytes that should be UTF-8. -/
def byteFault? (bytes : List UInt8) : Option ByteFault :=
  faultFrom? 0 bytes.length bytes

/-- The wording of a fault. -/
def ByteFault.message (f : ByteFault) : String :=
  let number (n : Nat) : String := String.ofList (Decimal.ofNat n)
  let place := if f.length = 1 then
      "byte 0x" ++ String.ofList (hexDigits 2 f.first.toNat) ++ " in position " ++
        number f.position
    else "bytes in position " ++ number f.position ++ "-" ++ number (f.position + f.length - 1)
  "'utf-8' codec can't decode " ++ place ++ ": " ++ f.problem.message

/-- Writes every line break as a line feed. -/
def unifyLineBreaks : List Char → List Char
  | [] => []
  | '\r' :: '\n' :: rest => '\n' :: unifyLineBreaks rest
  | c :: rest => (if c == '\r' then '\n' else c) :: unifyLineBreaks rest

end PagePlan.Text
