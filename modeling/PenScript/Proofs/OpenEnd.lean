import PenScript.Proofs.Scanner

/-!
# Blocks that are open at the end

While lines are still being entered, a block may be open where they end. Whatever stands
inside such a block is given up with it: of all blocks that are open one item is left,
at the end of the items, and it tells that the outermost of them was never closed, or
what is wrong with the header of that block.

No line is ever told that a block is never closed; only the end tells. So the items that
are complete before the end have other faults, if any.

## Main results

* `isOfLine_ofLines`: what is wrong with a script before its end, a single line tells;
* `items_finish_provisional`: the item that is left of the open blocks;
* `isOpen_of_diagnostics`: where no open block is reported, the reading is not open.
-/

namespace PenScript

/-! ## Faults before the end -/

/-- Whatever the scan finds wrong with a line, the line tells by itself. -/
theorem Scan.isOfLine_fault? {blocks : List OpenBlock} {line : Line} {fault : Fault}
    (hFault : Scan.fault? blocks line = some fault) : fault.IsOfLine := by
  have hSurplus : ∀ kind args, Scan.surplus? kind args = some fault →
      fault.IsOfLine := by
    intro kind args hFound
    unfold Scan.surplus? at hFound
    split at hFound
    · cases hFound
    · cases hFound
      exact rfl
  unfold Scan.fault? at hFault
  split at hFault
  · exact (failsWith_readAssignment line).of_fault? hFault
  · split at hFault
    · cases hFault
      exact rfl
    · exact (failsWith_readCommand _ _).of_fault? hFault
    · exact (failsWith_readOnlyName _ _).of_fault? hFault
    · exact (failsWith_readCondition _).of_fault? hFault
    · split at hFault
      · cases hFault
        exact rfl
      · exact (failsWith_readCount _).of_fault? hFault
    · split at hFault
      · cases hFault
        exact rfl
      · exact (failsWith_readOnlyName _ _).of_fault? hFault
    · exact hSurplus _ _ hFault
    · split at hFault
      · exact hSurplus _ _ hFault
      · cases hFault
        exact rfl

namespace Assembly

theorem isOfLine_feed {assembly : Assembly}
    (hBefore : ∀ problem ∈ assembly.faults, problem.fault.IsOfLine) (line : Line) :
    ∀ problem ∈ (assembly.feed line).faults, problem.fault.IsOfLine := by
  intro problem hMem
  have hCount := List.count_pos_iff.mpr hMem
  rw [count_faults_feed] at hCount
  by_cases hOld : problem ∈ assembly.faults
  · exact hBefore problem hOld
  · rw [List.count_eq_zero_of_not_mem hOld, Nat.zero_add, List.count_pos_iff] at hCount
    obtain ⟨fault, hFault, rfl⟩ := List.mem_map.mp hCount
    exact Scan.isOfLine_fault? (Option.mem_toList.mp hFault)

/-- **Before the end, only single lines are faulty.** -/
theorem isOfLine_ofLines (lines : List Line) :
    ∀ problem ∈ (ofLines lines).faults, problem.fault.IsOfLine := by
  have hFold : ∀ (lines : List Line) (assembly : Assembly),
      (∀ problem ∈ assembly.faults, problem.fault.IsOfLine) →
      ∀ problem ∈ (lines.foldl feed assembly).faults, problem.fault.IsOfLine := by
    intro lines
    induction lines with
    | nil => exact fun _ hBefore => hBefore
    | cons line rest ih => exact fun _ hBefore => ih _ (isOfLine_feed hBefore line)
  exact hFold lines {} fun _ hMem => absurd hMem List.not_mem_nil

theorem kind_ne_of_mem_items {lines : List Line} {problem : Diagnostic}
    (hMem : Except.error problem ∈ (ofLines lines).items) :
    problem.kind ≠ .unterminatedBlock := by
  refine (isOfLine_ofLines lines problem ?_).kind_ne
  have hItem : problem ∈ (ofLines lines).items.toList.flatMap Item.faults :=
    List.mem_flatMap.mpr ⟨_, Array.mem_toList_iff.mpr hMem,
      List.mem_singleton_self problem⟩
  exact List.mem_append_left _ (List.mem_append_left _ hItem)

end Assembly

/-! ## What is left of open blocks -/

/-- What is reported of a block that is given up. -/
def Frame.failure (frame : Frame) : Diagnostic :=
  ⟨frame.header.fault?.getD (.neverClosed frame.kind), frame.site⟩

theorem Frame.abandon_eq (frame : Frame) :
    frame.abandon.1 = .invalid frame.failure false := by
  cases hFault : frame.header.fault? with
  | some fault => rw [abandon_of_fault hFault, failure, hFault, Option.getD_some]
  | none => rw [abandon_of_none hFault, failure, hFault, Option.getD_none]

theorem Frame.expire_provisional : Frame.expire .provisional = Frame.abandon := by
  funext frame
  rw [expire, if_neg]
  exact fun hBoth => absurd hBoth.1 (by decide)

namespace Assembly

/-- **Of all open blocks one item is left**, which is about the outermost. -/
theorem items_finish_provisional (assembly : Assembly) :
    (assembly.finish .provisional).items = assembly.items.toList ++
      (assembly.frames.getLast?.map fun frame =>
        Except.error frame.failure).toList := by
  -- What is taken away is always the innermost block; of the list only the length
  -- counts.
  have hFold : ∀ (once : List Frame) (assembly : Assembly),
      once.length = assembly.frames.length →
      (once.foldl (fun assembly _ => assembly.pop Frame.abandon)
        assembly).items.toList =
        assembly.items.toList ++
          (assembly.frames.getLast?.map fun frame =>
            Except.error frame.failure).toList := by
    intro once
    induction once with
    | nil =>
        intro assembly hLength
        have hNone : assembly.frames = [] := List.eq_nil_of_length_eq_zero hLength.symm
        simp [hNone]
    | cons _ rest ih =>
        intro assembly hLength
        have hRest : rest.length = (assembly.pop Frame.abandon).frames.length := by
          rw [length_frames_pop, ← hLength, List.length_cons, Nat.add_sub_cancel]
        rw [List.foldl_cons, ih _ hRest]
        cases hFrames : assembly.frames with
        | nil =>
            rw [hFrames] at hLength
            cases hLength
        | cons frame outer =>
            rw [pop, hFrames]
            dsimp only
            rw [Frame.abandon_eq]
            cases outer with
            | nil => simp [place, Item.ofStmt]
            | cons next others =>
                -- The block around it gets one more statement and keeps its header.
                cases others with
                | nil => simp [place, Frame.failure, Frame.kind]
                | cons _ _ => simp [place]
  rw [finish, finishFrames, Frame.expire_provisional]
  exact hFold assembly.frames assembly rfl

end Assembly

/-! ## Readings that are not open -/

namespace Reading

variable {reading : Reading}

theorem isOpen_eq_false_iff : reading.isOpen = false ↔
    ∀ problem, Except.error problem ∈ reading.items →
      problem.kind ≠ .unterminatedBlock := by
  rw [isOpen, List.any_eq_false]
  constructor
  · intro hNone problem hMem hKind
    exact hNone _ hMem (beq_iff_eq.mpr hKind)
  · intro hNone item hMem
    cases item with
    | ok stmt => exact Bool.false_ne_true
    | error problem => exact fun hSame => hNone problem hMem (beq_iff_eq.mp hSame)

/-- Where no open block is reported, the reading is not open. -/
theorem isOpen_of_diagnostics
    (hNone : ∀ problem ∈ reading.diagnostics, problem.kind ≠ .unterminatedBlock) :
    reading.isOpen = false := by
  refine isOpen_eq_false_iff.mpr fun problem hMem => ?_
  exact hNone problem
    (mem_diagnostics.mpr (Or.inl ⟨_, hMem, List.mem_singleton_self problem⟩))

end Reading

end PenScript
