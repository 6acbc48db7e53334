import ThresholdSigning.Bytes

namespace ThresholdSigning

/-- An opaque identifier of a group member. -/
structure MemberId where
  bytes : ByteArray
deriving DecidableEq, Inhabited

namespace MemberId

def text (m : MemberId) : String := hex m.bytes

def debug (m : MemberId) : String := "MemberId(" ++ m.text ++ ")"

/-- Members are ordered by their bytes, as words in a dictionary. -/
def le (a b : MemberId) : Bool :=
  decide (a.bytes.data.toList ≤ b.bytes.data.toList)

def sort (members : List MemberId) : List MemberId := members.mergeSort le

def debugList (members : List MemberId) : String :=
  "[" ++ ", ".intercalate (members.map debug) ++ "]"

end MemberId

end ThresholdSigning
