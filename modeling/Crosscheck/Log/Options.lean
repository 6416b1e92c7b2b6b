namespace Crosscheck.Log

structure Options where
  level : String := ""
  file : String := ""
  deriving DecidableEq, Repr

end Crosscheck.Log
