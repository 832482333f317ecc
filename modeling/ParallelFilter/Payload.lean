import ParallelFilter.Text.Quoted

/-! Payloads of the multiplexed channels, and the form in which they are shown. A text is quoted, so it
cannot be taken for a number and stays on its line. -/

namespace ParallelFilter

inductive Payload where
  | int (value : Nat)
  | text (value : String)
  deriving DecidableEq

/-- The shown form of a payload. -/
def Payload.shown : Payload → String
  | .int value => "int " ++ toString value
  | .text value => "text " ++ String.ofList (Text.quote value.toList)

end ParallelFilter
