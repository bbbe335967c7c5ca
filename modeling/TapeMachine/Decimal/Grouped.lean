/-!
# Grouped digits

Large counts are written with a comma between groups of three digits.
-/

namespace TapeMachine

/-- Digits, the last first, with a comma behind every third that is not the last. -/
def groupReversed : List Char → List Char
  | a :: b :: c :: d :: rest => a :: b :: c :: ',' :: groupReversed (d :: rest)
  | rest => rest

def groupedText (n : Int) : String :=
  (if n < 0 then "-" else "") ++
    String.ofList (groupReversed (toString n.natAbs).toList.reverse).reverse

end TapeMachine
