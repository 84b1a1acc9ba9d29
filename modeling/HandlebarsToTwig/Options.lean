import HandlebarsToTwig.Dialect

/-! What a caller can choose: the dialect to emit and how deep blocks may nest. -/
namespace HandlebarsToTwig

def defaultMaxDepth : Nat := 64

structure Options where
  dialect : Dialect := {}
  maxDepth : Nat := defaultMaxDepth
  deriving DecidableEq, Repr

end HandlebarsToTwig
