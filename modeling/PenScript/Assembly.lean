import PenScript.Phrase

/-!
# Nesting lines into blocks

Lines are taken one at a time, and all that is remembered of the lines so far
is an *assembly*: the blocks that are open, innermost first, each with the
statements collected for its body; the items that are complete at top level;
and the diagnostics that were lost with the body of a block that failed, which
a check of the whole script still has to report.

The rules of nesting:

* an `if` line ends a conditional that is open directly around it, so
  conditionals never stand directly inside each other;
* `endif` ends a conditional that is open directly around it and otherwise
  does nothing;
* `endloop` and `endmethod` end a block of their kind and, on the way, a
  conditional inside it; where no block of the kind is next, they are misplaced;
* words after a closing word are a fault that counts from behind the block;
* a block with a faulty header is replaced as a whole by that fault.

What the end of the lines means depends on where they come from. In a complete
script it ends an open conditional, and any other open block is a fault. While
lines are still being entered, every open block is incomplete.

## Main results

* `place_of_nil`, `place_of_cons`: a statement goes into the innermost open block;
* `length_frames_pop`, `frames_finishFrames`: one block is closed at a time,
  and in the end all are.
-/

namespace PenScript

/-- What a script consists of at top level: statements, and lines or
blocks that failed. -/
abbrev Item := Except Diagnostic Stmt

namespace Item

/-- A statement at top level. An unreadable line is a failure there. -/
def ofStmt : Stmt → Item
  | .invalid problem _ => .error problem
  | stmt => .ok stmt

/-- The diagnostics of an item, from first to last. -/
def faults : Item → List Diagnostic
  | .error problem => [problem]
  | .ok stmt => stmt.faults

end Item

/-- What the end of the lines means. -/
inductive Ending where
  /-- The script ends there. -/
  | complete
  /-- More lines may follow. -/
  | provisional
deriving DecidableEq, Repr

/-- An open block. -/
structure Frame where
  header : Header
  site : Site
  /-- The statements of the body so far, in order. -/
  body : Array Stmt := #[]

/-- The block with that header and body, unless the header is faulty. -/
def Header.build (header : Header) (body : List Stmt) (site : Site) :
    Except Fault Stmt :=
  match header with
  | .conditional condition => condition.map fun condition => .branch condition body site
  | .loop count => count.map fun count => .loop count body site
  | .method name => name.map fun name => .method name body site

namespace Frame

/-- The kind of block. -/
def kind (frame : Frame) : BlockKind := frame.header.kind

/-- Ends a block: the statement it becomes, and the diagnostics lost with its body. -/
def close (frame : Frame) : Stmt × List Diagnostic :=
  match frame.header.build frame.body.toList frame.site with
  | .ok stmt => (stmt, [])
  | .error fault =>
      (.invalid ⟨fault, frame.site⟩ false, Stmt.faultsIn frame.body.toList)

/-- Gives up a block whose closing word never came. A fault in its header
takes precedence. -/
def abandon (frame : Frame) : Stmt × List Diagnostic :=
  let unclosed : Diagnostic := ⟨.neverClosed frame.kind, frame.site⟩
  let lost := Stmt.faultsIn frame.body.toList
  match frame.header.build frame.body.toList frame.site with
  | .ok _ => (.invalid unclosed false, lost)
  | .error fault => (.invalid ⟨fault, frame.site⟩ false, lost ++ [unclosed])

/-- What becomes of a block that is open where the lines end. -/
def expire (ending : Ending) (frame : Frame) : Stmt × List Diagnostic :=
  if ending = .complete ∧ frame.kind = .conditional then frame.close else frame.abandon

end Frame

/-- What is remembered of the lines so far. -/
structure Assembly where
  /-- The open blocks, innermost first. -/
  frames : List Frame := []
  /-- The complete items at top level, in order. -/
  items : Array Item := #[]
  /-- The diagnostics lost with the bodies of failed blocks. -/
  dropped : Array Diagnostic := #[]

namespace Assembly

/-- The kinds of the open blocks, innermost first. -/
def surroundings (assembly : Assembly) : List BlockKind :=
  assembly.frames.map Frame.kind

/-- The kind of the innermost open block. -/
def innermost? (assembly : Assembly) : Option BlockKind := assembly.surroundings.head?

/-- Adds a statement to the innermost open block, or to the items if none is open. -/
def place (assembly : Assembly) (stmt : Stmt) : Assembly :=
  match assembly.frames with
  | [] => { assembly with items := assembly.items.push (.ofStmt stmt) }
  | frame :: outer =>
      { assembly with frames := { frame with body := frame.body.push stmt } :: outer }

/-- Adds a control line that cannot be read, if something is wrong with it. -/
def note (assembly : Assembly) (fault : Option Fault) (site : Site) : Assembly :=
  match fault with
  | none => assembly
  | some fault => assembly.place (.invalid ⟨fault, site⟩ false)

/-- Takes away the innermost open block and adds what becomes of it to
the block around it. -/
def pop (assembly : Assembly) (become : Frame → Stmt × List Diagnostic) : Assembly :=
  match assembly.frames with
  | [] => assembly
  | frame :: outer =>
      let (stmt, lost) := become frame
      { assembly with frames := outer, dropped := assembly.dropped ++ lost }.place stmt

/-- Ends the innermost open block if it is a conditional. -/
def leaveConditional (assembly : Assembly) : Assembly :=
  if assembly.innermost? = some .conditional then assembly.pop Frame.close else assembly

/-- Opens a block. -/
def enter (assembly : Assembly) (header : Header) (site : Site) : Assembly :=
  { assembly with
    frames :=
      { header := header.within assembly.surroundings, site } :: assembly.frames }

/-- Ends a loop or a method, and a conditional inside it. -/
def leave (assembly : Assembly) (kind : BlockKind) (surplus : Option Fault)
    (site : Site) : Assembly :=
  let assembly :=
    if kind ∈ assembly.surroundings then assembly.leaveConditional else assembly
  if assembly.innermost? = some kind then (assembly.pop Frame.close).note surplus site
  else assembly.note (some (.strayCloser kind)) site

/-- Takes what a line says into account. -/
def absorb (assembly : Assembly) (phrase : Phrase) (site : Site) : Assembly :=
  match phrase with
  | .simple stmt => assembly.place stmt
  | .faulty fault gated => assembly.place (.invalid ⟨fault, site⟩ gated)
  | .opening (.conditional condition) =>
      assembly.leaveConditional.enter (.conditional condition) site
  | .opening header => assembly.enter header site
  | .closing .conditional surplus => assembly.leaveConditional.note surplus site
  | .closing kind surplus => assembly.leave kind surplus site

/-- Takes a line into account. -/
def feed (assembly : Assembly) (line : Line) : Assembly :=
  assembly.absorb (.ofLine line) line.toSite

/-- Disposes of every block that is still open, innermost first. -/
def finishFrames (ending : Ending) (assembly : Assembly) : Assembly :=
  assembly.frames.foldl (fun assembly _ => assembly.pop (Frame.expire ending)) assembly

/-! ## Small laws -/

theorem place_of_nil {assembly : Assembly} (hNone : assembly.frames = [])
    (stmt : Stmt) :
    assembly.place stmt =
      { assembly with items := assembly.items.push (.ofStmt stmt) } := by
  rw [place, hNone]

theorem place_of_cons {assembly : Assembly} {frame : Frame} {outer : List Frame}
    (hOpen : assembly.frames = frame :: outer) (stmt : Stmt) :
    assembly.place stmt =
      { assembly with
        frames := { frame with body := frame.body.push stmt } :: outer } := by
  rw [place, hOpen]

@[simp] theorem length_frames_place (assembly : Assembly) (stmt : Stmt) :
    (assembly.place stmt).frames.length = assembly.frames.length := by
  unfold place
  split
  · rfl
  · rename_i hOpen
    simp [hOpen]

@[simp] theorem length_frames_pop (assembly : Assembly)
    (become : Frame → Stmt × List Diagnostic) :
    (assembly.pop become).frames.length = assembly.frames.length - 1 := by
  unfold pop
  split
  · rename_i hNone
    simp [hNone]
  · rename_i hOpen
    simp [hOpen]

private theorem length_frames_foldl_pop (become : Frame → Stmt × List Diagnostic)
    (once : List Frame) : ∀ assembly : Assembly,
    (once.foldl (fun assembly _ => assembly.pop become) assembly).frames.length =
      assembly.frames.length - once.length := by
  induction once with
  | nil => intro assembly; rfl
  | cons _ rest ih =>
      intro assembly
      rw [List.foldl_cons, ih, length_frames_pop, List.length_cons]
      omega

/-- At the end no block is open. -/
theorem frames_finishFrames (ending : Ending) (assembly : Assembly) :
    (assembly.finishFrames ending).frames = [] := by
  apply List.eq_nil_of_length_eq_zero
  rw [finishFrames, length_frames_foldl_pop, Nat.sub_self]

end Assembly

end PenScript
