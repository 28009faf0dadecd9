namespace SdpRelay

/-- Why text cannot be read from a problem file, or not be written to a print target. -/
inductive FileFault where
  /-- The text ends before the problem does. -/
  | endsEarly
  /-- Any other failure: the text is not a problem file, or a target does not take it. -/
  | invalid
  deriving Repr, DecidableEq

end SdpRelay
