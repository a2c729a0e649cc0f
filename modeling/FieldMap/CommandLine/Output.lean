/-!
# What a call prints

A call prints texts one after the other, and may come upon a failure, at
which it stops; what it has printed before stays printed. So the output of
a call is a list of texts and failures, of which everything behind the
first failure does not count.

A failure is an account of what went wrong: the message of an error, in
front of it what was being done, and behind it the errors below.
-/

namespace FieldMap.CommandLine

/-- **An account of what went wrong**, outermost first. -/
abbrev Failure := List String

/-- The account in one line. -/
def Failure.line (failure : Failure) : String := ": ".intercalate failure

/-- The texts of an output behind `out`, up to its first failure. -/
def printedOnto (out : String) : List (Except Failure String) → String × Option Failure
  | [] => (out, none)
  | .error failure :: _ => (out, some failure)
  | .ok text :: rest => printedOnto (out ++ text) rest

/-- **The texts of an output up to its first failure**, and that
failure. -/
def printed (output : List (Except Failure String)) : String × Option Failure :=
  printedOnto "" output

/-- **How a call ends.** -/
structure Outcome where
  status : Nat
  stdout : String
  stderr : String
deriving DecidableEq, Repr

namespace Outcome

/-- The end of a call with an output. -/
def ofPrinted : String × Option Failure → Outcome
  | (out, none) => ⟨0, out, ""⟩
  | (out, some failure) => ⟨1, out, "Error: " ++ failure.line ++ "\n"⟩

/-- The end of a call whose arguments do not have the right form. -/
def usage : Outcome :=
  ⟨2, "", "usage: fieldcodec [--json] [--uncompressed] <dump|encounter|background|asm|verify> ...\n"⟩

end Outcome

end FieldMap.CommandLine
