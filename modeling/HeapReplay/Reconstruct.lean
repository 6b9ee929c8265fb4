import HeapReplay.Dump.Reader
import HeapReplay.Marking
import HeapReplay.Script.Emission

/-!
# From a heap log to a script

The whole way in three steps: read the log, mark what is in use, write the script.  The first step
that fails decides the outcome, and then there is no script at all.
-/

namespace HeapReplay

/-- The graph of a log with the nodes marked that are in use. -/
def buildGraph (file text : String) : Except Failure HeapGraph := do
  let g ← Dump.parse file text
  let marking ← g.mark.toExcept
  return marking.graph

/-- The script that rebuilds the heap of a log. -/
def reconstruct (style : Script.Style) (file text : String) : Except Failure String := do
  let g ← buildGraph file text
  Script.render style g

end HeapReplay
