/-! Signed 64-bit words.

Counters, addresses and offsets of the machine are 64-bit words. They are kept as integers, and
`wrap` is applied where a sum or product can leave the range. -/
namespace TapeMachine.Word

/-- The least signed word. -/
def least : Int := -9223372036854775808

/-- The greatest signed word. -/
def greatest : Int := 9223372036854775807

/-- The greatest unsigned word. -/
def unsignedGreatest : Nat := 18446744073709551615

/-- The signed word congruent to `i` modulo `2 ^ 64`. -/
def wrap (i : Int) : Int := i.bmod (Nat.pow 2 64)

/-- The number of bits in a number of bytes. -/
def bits (bytes : Int) : Int := wrap (bytes * 8)

/-- The sizes in bytes that a cell can have. -/
def cellSizes : List Nat := [1, 2, 4, 8]

/-- Whether `i` is a signed word. -/
def fits (i : Int) : Bool := decide (least ≤ i ∧ i ≤ greatest)

end TapeMachine.Word
