import HeapReplay.Dump.Record
import HeapReplay.Progress

/-!
# Reading a heap log

A reader goes through the lines of a log and builds a graph.  Beside the graph it remembers three
things: the section it is in, the node that edges are attached to, and how many weak map records it
has passed over.  All of it survives the end of a text, so a log may be handed over in pieces.

**One line at a time.**  `Reader.step` does all its checks before its first change, so a line that is
refused leaves the reader as it was.  Sections may repeat and interleave; the node that edges are
attached to is the last one of the main section, whatever other sections came between.

**References are checked last.**  Edges may point forwards, so only after the last line of a text
does `Reader.read` look for addresses that were never declared.
-/

namespace HeapReplay.Dump

/-- What is remembered between two lines of a log. -/
structure Reader where
  graph : HeapGraph := {}
  /-- The section that the next record belongs to. -/
  within : Option Section := none
  /-- The id of the node that the next edge belongs to. -/
  owner : Option Nat := none
  /-- The number of weak map records so far. -/
  weakLines : Nat := 0
deriving DecidableEq, Repr

/-- The position of a line in a named log. -/
def Line.location (file : String) (l : Line) : Location :=
  { file, line := l.number }

/-- The failure of a line whose text cannot be read. -/
def Line.malformed (file : String) (l : Line) (problem : LineProblem) : Failure :=
  .fault (.malformed problem (some (l.location file)) (some l.text))

namespace Reader

/-- Adds a root. -/
def addRoot (r : Reader) (root : Root) : Reader :=
  { r with graph := r.graph.addRoot root }

/-- Declares a node, which then owns the edges that follow. -/
def addNode (r : Reader) (n : NodeRecord) (location : Location) : Except Failure Reader :=
  match Kind.classify n.tag n.details (some location) with
  | .error fault => .error (.fault fault)
  | .ok kind =>
    match r.graph.addNode n.address n.color kind n.details (some location) with
    | .error fault => .error (.fault fault)
    | .ok (node, graph) => .ok { r with graph, owner := some node.id }

/-- Adds an edge to its owner. -/
def addEdge (r : Reader) (owner : Nat) (e : EdgeRecord) : Except Failure Reader :=
  match r.graph.addEdge owner e.name e.target with
  | .error failure => .error failure
  | .ok (_, graph) => .ok { r with graph }

/-- Enters a record of the main section. -/
def enterMain (file : String) (r : Reader) (l : Line) : Except Failure Reader :=
  match Text.words l.text with
  | [] => .ok r
  | first :: rest =>
    if first = edgeMarker then
      match r.owner with
      | none => .error (l.malformed file .unexpectedEdge)
      | some owner =>
        match readEdge rest with
        | .error problem => .error (l.malformed file problem)
        | .ok edge => r.addEdge owner edge
    else
      match readNode (first :: rest) with
      | .error problem => .error (l.malformed file problem)
      | .ok node => r.addNode node (l.location file)

/-- Enters a record of the section that the reader is in. -/
def enter (file : String) (r : Reader) (l : Line) : Except Failure Reader :=
  match r.within with
  | none => .error (l.malformed file .outsideSection)
  | some .roots =>
    match readRoot (Text.words l.text) with
    | .error problem => .error (l.malformed file problem)
    | .ok root => .ok (r.addRoot root)
  | some .weakMaps => .ok { r with weakLines := r.weakLines + 1 }
  | some .main => r.enterMain file l

/-- Takes in one line. -/
def step (file : String) (r : Reader) (l : Line) : Except Failure Reader :=
  match l.entry with
  | .header opened => .ok { r with within := some opened }
  | .comment | .trailer => .ok r
  | .record => r.enter file l

/-- Stops a reader whose graph refers to an address that was never declared. -/
def checkReferences (r : Reader) : Progress Reader Failure :=
  { state := r, failure := r.graph.dangling?.map .fault }

/-- Takes in the lines of a text up to its trailer, then checks the references. -/
def read (file text : String) (r : Reader) : Progress Reader Failure :=
  (Progress.run (step file) r (body text)).andThen checkReferences

end Reader

/-- The graph of a whole log, or the first problem of the log. -/
def parse (file text : String) : Except Failure HeapGraph :=
  (Reader.read file text {}).toExcept.map (·.graph)

end HeapReplay.Dump
