import HeapReplay.Proofs.Chunking

/-!
# Changing a reader in place

`Reader.step` gives a new reader or a failure, so a line that it refuses has nowhere to leave a
trace.  A program that keeps its tables in place has: it checks and writes in turn, and when a check
fails, **what has been written before stays written**.

Here a reader is changed in this way.  A state that outlives a failure is what `EStateM` is for:
every operation is a sequence of checks and of writes, each write to one table, and an operation of a
part is run on that part (`InPlace.on`).  Nothing is undone anywhere.

**All checks come before the first write.**  So an operation in place gives what the function of the
same name gives, and when it fails it leaves the state as it found it: that is `InPlace.settled`.
Each operation has one lemma which says so, from the tables of addresses and names up to a line
(`Reader.stepInPlace_eq`) and to a whole text (`Reader.readInPlace_eq`).
-/

namespace HeapReplay

/-- An operation that changes a state as it goes. -/
abbrev InPlace (σ α : Type) : Type :=
  EStateM Failure σ α

namespace InPlace

variable {σ τ α : Type}

/-- Goes on with a value, or stops where there is none. -/
def check : Except Failure α → InPlace σ α
  | .ok a => pure a
  | .error f => throw f

/-- Works on a part of the state. -/
def on (part : σ → τ) (put : τ → σ → σ) (operation : InPlace τ α) : InPlace σ α := fun s =>
  match operation (part s) with
  | .ok a t => .ok a (put t s)
  | .error f t => .error f (put t s)

/-- The outcome of an operation that changes nothing unless it succeeds. -/
def settled (s : σ) : Except Failure (α × σ) → EStateM.Result Failure σ α
  | .ok (a, s') => .ok a s'
  | .error f => .error f s

/-- The outcome of what follows work on a part that changes nothing unless it succeeds. -/
def resumed {β : Type} (put : τ → σ → σ) (next : β → InPlace σ α) (s : σ) :
    Except Failure (β × τ) → EStateM.Result Failure σ α
  | .ok (b, t) => next b (put t s)
  | .error f => .error f s

/-- The outcome of an operation that gives no value and changes nothing unless it succeeds. -/
def left (s : σ) : Except Failure σ → EStateM.Result Failure σ Unit
  | .ok s' => .ok () s'
  | .error f => .error f s

/-- The state that an operation leaves, whether it succeeds or fails. -/
def leaves (operation : InPlace σ α) (s : σ) : σ :=
  match operation s with
  | .ok _ s' => s'
  | .error _ s' => s'

/-- After an operation that succeeds, what follows starts from the state that it leaves. -/
lemma bind_of_eq_ok {operation : InPlace σ τ} {next : τ → InPlace σ α} {s s' : σ} {a : τ}
    (h : operation s = .ok a s') : (operation >>= next) s = next a s' := by
  show EStateM.bind operation next s = next a s'
  rw [EStateM.bind, h]

/-- After an operation that fails, nothing follows, and its state is left. -/
lemma bind_of_eq_error {operation : InPlace σ τ} {next : τ → InPlace σ α} {s s' : σ} {f : Failure}
    (h : operation s = .error f s') : (operation >>= next) s = .error f s' := by
  show EStateM.bind operation next s = .error f s'
  rw [EStateM.bind, h]

/-- Work on a part that fails and leaves the part alone leaves the whole alone; what follows it is
not reached then. -/
lemma bind_on_eq {β : Type} {part : σ → τ} {put : τ → σ → σ} {operation : InPlace τ β}
    {next : β → InPlace σ α} {s : σ} (same : put (part s) s = s) {r : Except Failure (β × τ)}
    (h : operation (part s) = settled (part s) r) :
    (on part put operation >>= next) s = resumed put next s r := by
  cases r with
  | ok p =>
      have hon : on part put operation s = .ok p.1 (put p.2 s) := by
        rw [on, h]
        rfl
      exact bind_of_eq_ok hon
  | error f =>
      have hon : on part put operation s = .error f s := by
        rw [on, h]
        simp only [settled, same]
      exact bind_of_eq_error hon

end InPlace

/-- The outcome of a run: the state that it leaves, and what stopped it. -/
def Progress.result {σ : Type} (p : Progress σ Failure) : EStateM.Result Failure σ Unit :=
  match p.failure with
  | none => .ok () p.state
  | some f => .error f p.state

open InPlace

/-! ## The tables of a graph -/

namespace Registry

/-- Puts an address down in both tables, first its id and then the address, unless it is there. -/
def registerInPlace (a : Address) (location : Option Location) : InPlace Registry Nat := do
  let r ← get
  if r.contains a then
    throw (.fault (.duplicateAddress a location))
  else
    modify fun s => { s with ids := s.ids ++ [(a, r.size)] }
    modify fun s => { s with addresses := s.addresses ++ [a] }
    return r.size

lemma registerInPlace_eq (r : Registry) (a : Address) (location : Option Location) :
    registerInPlace a location r = settled r ((r.register a location).mapError .fault) := by
  show (if r.contains a then throw (.fault (.duplicateAddress a location)) else do
    modify fun s => { s with ids := s.ids ++ [(a, r.size)] }
    modify fun s => { s with addresses := s.addresses ++ [a] }
    return r.size : InPlace Registry Nat) r = _
  rw [register]
  split_ifs <;> rfl

end Registry

namespace Interner

/-- Finds the key of a name, which is put down in the table of names if it has none. -/
def keyInPlace (name : String) : InPlace Interner Nat := do
  let t ← get
  match t.key? name with
  | some id => return id
  | none =>
    modify fun s => { s with entries := s.entries ++ [(name, t.size)] }
    return t.size

/-- Finds the label of a name. -/
def internInPlace (name : String) : InPlace Interner Label :=
  match elementDigits? name with
  | some digits =>
    if digits.length ≤ Failure.maxIndexDigits then
      return .index (Nat.ofDigitChars 10 digits 0)
    else throw (.indexTooLong digits.length)
  | none => do
    let id ← keyInPlace name
    return .key id

lemma keyInPlace_eq (t : Interner) (name : String) :
    keyInPlace name t = .ok (t.key name).1 (t.key name).2 := by
  show (match t.key? name with
    | some id => return id
    | none => do
      modify fun s => { s with entries := s.entries ++ [(name, t.size)] }
      return t.size : InPlace Interner Nat) t = _
  rw [key]
  cases t.key? name <;> rfl

lemma internInPlace_eq (t : Interner) (name : String) :
    internInPlace name t = settled t (t.intern name) := by
  rw [internInPlace, intern]
  cases elementDigits? name with
  | some digits =>
      dsimp only
      split_ifs <;> rfl
  | none => exact bind_of_eq_ok (keyInPlace_eq t name)

end Interner

namespace HeapGraph

/-- Works on the table of addresses. -/
def onRegistry {α : Type} : InPlace Registry α → InPlace HeapGraph α :=
  on registry fun registry g => { g with registry }

/-- Works on the table of names. -/
def onInterner {α : Type} : InPlace Interner α → InPlace HeapGraph α :=
  on interner fun interner g => { g with interner }

/-- Declares a node: its address is put down, then the node. -/
def addNodeInPlace (address : Address) (color : Color) (kind : Kind) (details : String)
    (location : Option Location) : InPlace HeapGraph Node := do
  let id ← onRegistry (Registry.registerInPlace address location)
  let node : Node := { id, address, color, kind, details }
  modify fun g => { g with nodes := g.nodes ++ [node] }
  return node

lemma addNodeInPlace_eq (g : HeapGraph) (address : Address) (color : Color) (kind : Kind)
    (details : String) (location : Option Location) :
    addNodeInPlace address color kind details location g
      = settled g ((g.addNode address color kind details location).mapError .fault) := by
  rw [addNodeInPlace, onRegistry, bind_on_eq rfl (Registry.registerInPlace_eq g.registry address
    location), addNode]
  cases g.registry.register address location <;> rfl

/-- Adds an edge to a node: its name is put down, then the edge. -/
def addEdgeInPlace (source : Nat) (name : String) (target : Address) : InPlace HeapGraph Label := do
  let label ← onInterner (Interner.internInPlace name)
  modify fun g => { g with nodes := g.nodes.map (extendEdges source { target, label }) }
  return label

lemma addEdgeInPlace_eq (g : HeapGraph) (source : Nat) (name : String) (target : Address) :
    addEdgeInPlace source name target g = settled g (g.addEdge source name target) := by
  rw [addEdgeInPlace, onInterner, bind_on_eq rfl (Interner.internInPlace_eq g.interner name), addEdge]
  cases g.interner.intern name <;> rfl

/-- Adds a root. -/
def addRootInPlace (root : Root) : InPlace HeapGraph Unit :=
  modify fun g => g.addRoot root

/-- Makes an edit.  Edges are added to nodes that are there. -/
def editInPlace : Edit → InPlace HeapGraph Unit
  | .addNode address color kind details location => do
    let _ ← addNodeInPlace address color kind details location
    return ()
  | .addEdge source name target => do
    if ((← get).node? source).isNone then
      return ()
    else
      let _ ← addEdgeInPlace source name target
      return ()
  | .addRoot root => addRootInPlace root

/-- **An edit in place leaves what the edit makes**, one that fails included. -/
lemma leaves_editInPlace (g : HeapGraph) (e : Edit) : leaves (editInPlace e) g = g.edit e := by
  cases e with
  | addNode address color kind details location =>
      have hadd := addNodeInPlace_eq g address color kind details location
      rw [leaves, editInPlace, edit]
      cases h : g.addNode address color kind details location with
      | ok p =>
          rw [h] at hadd
          rw [bind_of_eq_ok hadd]
          rfl
      | error f =>
          rw [h] at hadd
          rw [bind_of_eq_error hadd]
  | addEdge source name target =>
      have hadd := addEdgeInPlace_eq g source name target
      show leaves (if (g.node? source).isNone then return () else do
        let _ ← addEdgeInPlace source name target
        return () : InPlace HeapGraph Unit) g = _
      rw [edit]
      split_ifs
      · rfl
      · rw [leaves]
        cases h : g.addEdge source name target with
        | ok p =>
            rw [h] at hadd
            rw [bind_of_eq_ok hadd]
            rfl
        | error f =>
            rw [h] at hadd
            rw [bind_of_eq_error hadd]
  | addRoot root => rfl

end HeapGraph

/-! ## Readers -/

namespace Dump.Reader

/-- Works on the graph of a reader. -/
def onGraph {α : Type} : InPlace HeapGraph α → InPlace Reader α :=
  on graph fun graph r => { r with graph }

/-- Declares a node, then makes it the owner of the edges that follow. -/
def addNodeInPlace (n : NodeRecord) (location : Location) : InPlace Reader Unit := do
  let kind ← check ((Kind.classify n.tag n.details (some location)).mapError .fault)
  let node ← onGraph (HeapGraph.addNodeInPlace n.address n.color kind n.details (some location))
  modify fun r => { r with owner := some node.id }

/-- Adds an edge to its owner. -/
def addEdgeInPlace (owner : Nat) (e : EdgeRecord) : InPlace Reader Unit := do
  let _ ← onGraph (HeapGraph.addEdgeInPlace owner e.name e.target)
  return ()

/-- Enters a record of the main section. -/
def enterMainInPlace (file : String) (l : Line) : InPlace Reader Unit :=
  match Text.words l.text with
  | [] => return ()
  | first :: rest =>
    if first = edgeMarker then do
      match (← get).owner with
      | none => throw (l.malformed file .unexpectedEdge)
      | some owner =>
        let e ← check ((readEdge rest).mapError (l.malformed file))
        addEdgeInPlace owner e
    else do
      let n ← check ((readNode (first :: rest)).mapError (l.malformed file))
      addNodeInPlace n (l.location file)

/-- Enters a record of the section that the reader is in. -/
def enterInPlace (file : String) (l : Line) : InPlace Reader Unit := do
  match (← get).within with
  | none => throw (l.malformed file .outsideSection)
  | some .roots =>
    let root ← check ((readRoot (Text.words l.text)).mapError (l.malformed file))
    onGraph (HeapGraph.addRootInPlace root)
  | some .weakMaps => modify fun r => { r with weakLines := r.weakLines + 1 }
  | some .main => enterMainInPlace file l

/-- Takes in one line. -/
def stepInPlace (file : String) (l : Line) : InPlace Reader Unit :=
  match l.entry with
  | .header opened => modify fun r => { r with within := some opened }
  | .comment | .trailer => return ()
  | .record => enterInPlace file l

/-- Takes in some lines, one after the other. -/
def takeInPlace (file : String) (ls : List Line) : InPlace Reader Unit :=
  ls.forM (stepInPlace file)

/-- Stops if the graph refers to an address that was never declared. -/
def checkReferencesInPlace : InPlace Reader Unit := do
  match (← get).graph.dangling? with
  | some fault => throw (.fault fault)
  | none => return ()

/-- Takes in the lines of a text up to its trailer, then checks the references. -/
def readInPlace (file text : String) : InPlace Reader Unit := do
  takeInPlace file (body text)
  checkReferencesInPlace

/-! ### What a line leaves -/

lemma addNodeInPlace_eq (r : Reader) (n : NodeRecord) (location : Location) :
    addNodeInPlace n location r = left r (r.addNode n location) := by
  rw [addNodeInPlace, addNode]
  cases Kind.classify n.tag n.details (some location) with
  | error fault => rfl
  | ok kind =>
      have hadd := HeapGraph.addNodeInPlace_eq r.graph n.address n.color kind n.details (some location)
      refine (bind_of_eq_ok rfl).trans ?_
      rw [onGraph, bind_on_eq rfl hadd]
      dsimp only
      cases r.graph.addNode n.address n.color kind n.details (some location) <;> rfl

lemma addEdgeInPlace_eq (r : Reader) (owner : Nat) (e : EdgeRecord) :
    addEdgeInPlace owner e r = left r (r.addEdge owner e) := by
  rw [addEdgeInPlace, onGraph,
    bind_on_eq rfl (HeapGraph.addEdgeInPlace_eq r.graph owner e.name e.target), addEdge]
  cases r.graph.addEdge owner e.name e.target <;> rfl

lemma enterMainInPlace_eq (file : String) (r : Reader) (l : Line) :
    enterMainInPlace file l r = left r (r.enterMain file l) := by
  rw [enterMainInPlace, enterMain]
  cases Text.words l.text with
  | nil => rfl
  | cons first rest =>
      dsimp only
      split_ifs
      · show (match r.owner with
          | none => throw (l.malformed file .unexpectedEdge)
          | some owner => do
            let e ← check ((readEdge rest).mapError (l.malformed file))
            addEdgeInPlace owner e : InPlace Reader Unit) r = _
        cases r.owner with
        | none => rfl
        | some owner =>
            cases readEdge rest with
            | error problem => rfl
            | ok e => exact addEdgeInPlace_eq r owner e
      · cases readNode (first :: rest) with
        | error problem => rfl
        | ok n => exact addNodeInPlace_eq r n (l.location file)

lemma enterInPlace_eq (file : String) (r : Reader) (l : Line) :
    enterInPlace file l r = left r (r.enter file l) := by
  show (match r.within with
    | none => throw (l.malformed file .outsideSection)
    | some .roots => do
      let root ← check ((readRoot (Text.words l.text)).mapError (l.malformed file))
      onGraph (HeapGraph.addRootInPlace root)
    | some .weakMaps => modify fun r => { r with weakLines := r.weakLines + 1 }
    | some .main => enterMainInPlace file l : InPlace Reader Unit) r = _
  rw [enter]
  cases hw : r.within with
  | none => rfl
  | some s =>
      cases s with
      | roots => cases readRoot (Text.words l.text) <;> rfl
      | weakMaps =>
          dsimp only
          rw [← hw]
          rfl
      | main => exact enterMainInPlace_eq file r l

/-- **A line that is refused leaves the reader as it was.** -/
lemma stepInPlace_eq (file : String) (r : Reader) (l : Line) :
    stepInPlace file l r = left r (step file r l) := by
  rw [stepInPlace, step]
  cases l.entry with
  | header opened => rfl
  | comment => rfl
  | trailer => rfl
  | record => exact enterInPlace_eq file r l

/-- Lines taken in one after the other leave what the run over them leaves. -/
lemma takeInPlace_eq (file : String) (r : Reader) (ls : List Line) :
    takeInPlace file ls r = (Progress.run (step file) r ls).result := by
  induction ls generalizing r with
  | nil => rfl
  | cons l ls ih =>
      have hstep := stepInPlace_eq file r l
      show (stepInPlace file l >>= fun _ => takeInPlace file ls) r = _
      rw [Progress.run]
      cases hl : step file r l with
      | ok r' =>
          rw [hl] at hstep
          exact (bind_of_eq_ok hstep).trans (ih r')
      | error f =>
          rw [hl] at hstep
          exact bind_of_eq_error hstep

lemma checkReferencesInPlace_eq (r : Reader) :
    checkReferencesInPlace r = r.checkReferences.result := by
  show (match r.graph.dangling? with
    | some fault => throw (.fault fault)
    | none => return () : InPlace Reader Unit) r = _
  rw [checkReferences]
  cases r.graph.dangling? <;> rfl

/-- **Reading in place leaves what reading leaves.** -/
lemma readInPlace_eq (file text : String) (r : Reader) :
    readInPlace file text r = (r.read file text).result := by
  have htake := takeInPlace_eq file r (body text)
  rw [readInPlace, read]
  cases hrun : Progress.run (step file) r (body text) with
  | mk s failure =>
      rw [hrun] at htake
      cases failure with
      | none => exact (bind_of_eq_ok htake).trans (checkReferencesInPlace_eq s)
      | some f => exact bind_of_eq_error htake

end Dump.Reader

end HeapReplay
