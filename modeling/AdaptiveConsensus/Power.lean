/-!
# Powers of two and of ten

Words are bounded by powers of two, and decimals are scaled by powers of ten.
-/

namespace AdaptiveConsensus

/-- The power `2^k`. -/
def twoTo (k : Nat) : Nat := Nat.pow 2 k

/-- The power `10^k`. -/
def tenTo (k : Nat) : Nat := Nat.pow 10 k

theorem twoTo_pos (k : Nat) : 0 < twoTo k := Nat.two_pow_pos k

end AdaptiveConsensus
