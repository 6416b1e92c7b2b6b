import Crosscheck.Session

namespace Crosscheck.Session

variable {σ ε : Type}

inductive Event (ε : Type) where
  | started (cases : List TestCase)
  | assembled (tool : Tool) (path : String) (result : RunResult ε)
  | compared (dir₁ dir₂ base ext : String) (equal : Bool)
  | caseFinished (c : CaseResult ε)
  | finished (r : Report ε)

abbrev History (σ ε : Type) := List (σ × Event ε)

def History.events (h : History σ ε) : List (Event ε) := h.map (·.2)

/-- The same parts over a state that also keeps the history. -/
def Parts.traced (p : Parts σ ε) : Parts (σ × History σ ε) ε where
  assemble t path s :=
    let (r, w) := p.assemble t path s.1
    (r, w, s.2 ++ [(s.1, .assembled t path r)])
  compare d₁ d₂ base ext s :=
    let (equal, w) := p.compare d₁ d₂ base ext s.1
    (equal, w, s.2 ++ [(s.1, .compared d₁ d₂ base ext equal)])
  started cases s := (p.started cases s.1, s.2 ++ [(s.1, .started cases)])
  caseFinished c s := (p.caseFinished c s.1, s.2 ++ [(s.1, .caseFinished c)])
  finished r s := (p.finished r s.1, s.2 ++ [(s.1, .finished r)])
  note record s := (p.note record s.1, s.2)
  files s := p.files s.1
  setFiles fs s := (p.setFiles fs s.1, s.2)

end Crosscheck.Session
