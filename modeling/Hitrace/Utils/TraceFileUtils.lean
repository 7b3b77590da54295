import Mathlib.Algebra.Ring.Nat
import Mathlib.Tactic.Common

namespace Hitrace

/-! Path checks of `utils/trace_file_utils.cpp`. -/

def traceWritablePath : List Char := "/data/local/tmp".toList

/-- `std::string::find` succeeds. -/
def containsWord (word text : List Char) : Bool :=
  text.tails.any fun suffix => word.isPrefixOf suffix

def isWritable (fileName : List Char) : Bool :=
  if traceWritablePath.isPrefixOf fileName then
    match fileName.drop traceWritablePath.length with
    | [] => true
    | head :: tail =>
        head == '/' &&
          !containsWord "../".toList (head :: tail) &&
          !containsWord "..\\".toList (head :: tail) &&
          !containsWord "./".toList (head :: tail) &&
          !containsWord ".\\".toList (head :: tail)
  else false

end Hitrace
