/-!
# Totals
-/
namespace SdkEvidence

/-- The sum of numbers. -/
def total : List Nat → Nat
  | [] => 0
  | n :: rest => n + total rest

end SdkEvidence
