import ClassSketch.Proofs.FoundFiles
import ClassSketch.Proofs.Turns
import Mathlib.Tactic.FinCases

namespace ClassSketch.Command

open Files

variable {σ : Type} [FileAccess (StateM σ)] {files : σ → FileSystem}

section

variable {text : ClassDecl → String} {dir : String} {fs fs' : FileSystem} {trace : List Turn}
  {writes : List (List Write)}

end

end ClassSketch.Command
