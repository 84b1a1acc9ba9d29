import HandlebarsToTwig.Options

/-! Options that are given in part: whatever is left out keeps its default. -/
namespace HandlebarsToTwig

structure Dialect.Overlay where
  varOpen : Option Text := none
  varClose : Option Text := none
  blockOpen : Option Text := none
  blockClose : Option Text := none
  loopIndex : Option Text := none
  deriving DecidableEq, Repr

namespace Dialect.Overlay

/-- One of the named parts of an overlay. -/
structure Part where
  name : Text
  get : Overlay → Option Text
  set : Overlay → Text → Overlay

/-- All parts, in the order in which a list gives them. -/
def parts : List Part :=
  [⟨"var_open".toList, varOpen, fun o s => { o with varOpen := some s }⟩,
    ⟨"var_close".toList, varClose, fun o s => { o with varClose := some s }⟩,
    ⟨"block_open".toList, blockOpen, fun o s => { o with blockOpen := some s }⟩,
    ⟨"block_close".toList, blockClose, fun o s => { o with blockClose := some s }⟩,
    ⟨"loop_index".toList, loopIndex, fun o s => { o with loopIndex := some s }⟩]

/-- Puts the given parts over those of `d`. -/
def onto (o : Overlay) (d : Dialect) : Dialect where
  varOpen := o.varOpen.getD d.varOpen
  varClose := o.varClose.getD d.varClose
  blockOpen := o.blockOpen.getD d.blockOpen
  blockClose := o.blockClose.getD d.blockClose
  loopIndex := o.loopIndex.getD d.loopIndex

end Dialect.Overlay

structure Options.Overlay where
  dialect : Option Dialect := none
  maxDepth : Option Nat := none
  deriving DecidableEq, Repr

namespace Options.Overlay

def dialectName : Text := "syntax".toList
def maxDepthName : Text := "max_depth".toList

def onto (o : Overlay) (base : Options) : Options where
  dialect := o.dialect.getD base.dialect
  maxDepth := o.maxDepth.getD base.maxDepth

end Options.Overlay

end HandlebarsToTwig
