/-
This file proves that the walks through an arena read outlines. The children of a node come before
it, so every node has an outline, and nodes that are added later do not change it. A round of a walk
takes the next node and leaves everything behind it alone; by induction on the outline, the rounds
from the visit of a node to the visit of what stands behind it add the text or the tokens of the
outline, with any parts in front and anything left to do. The arena of a run is filled by calls, so
the forest of a step reads in the arena of the trace as it did when the step was taken.
-/

import ShiftReduce.Forest.Call
import ShiftReduce.Forest.Outline
import ShiftReduce.Forest.Rounds
import ShiftReduce.Proofs.Traces

namespace ShiftReduce

/-! ### Outlines and nodes -/

namespace Outline

theorem textOf_eq (outlines : List Outline) :
    textOf outlines = String.join ((outlines.map text).map (" " ++ ·)) := by
  induction outlines with
  | nil => rfl
  | cons outline rest inductionHypothesis =>
    rw [textOf, inductionHypothesis, List.map_cons, List.map_cons, String.join_cons]

theorem tokensOf_eq (outlines : List Outline) :
    tokensOf outlines = (outlines.map tokens).flatten := by
  induction outlines with
  | nil => rfl
  | cons outline rest inductionHypothesis =>
    rw [tokensOf, inductionHypothesis, List.map_cons, List.flatten_cons]

section Nodes

variable {node : Node} {children : List Outline}

theorem eq_nil_of_leaf (leaf : node.isLeaf = true)
    (aligned : node.children.length = children.length) : children = [] := by
  rw [← List.length_eq_zero_iff, ← aligned, List.isEmpty_iff.mp leaf, List.length_nil]

theorem text_of_leaf (leaf : node.isLeaf = true)
    (aligned : node.children.length = children.length) :
    (Outline.node node.label node.value children).text = node.leafText := by
  rw [eq_nil_of_leaf leaf aligned, Node.leafText]
  cases node.value <;> rfl

theorem tokens_of_leaf (leaf : node.isLeaf = true)
    (aligned : node.children.length = children.length) :
    (Outline.node node.label node.value children).tokens = node.leafTokens := by
  rw [eq_nil_of_leaf leaf aligned]
  rfl

theorem exists_cons_of_branch (inner : ¬ node.isLeaf = true)
    (aligned : node.children.length = children.length) :
    ∃ first others, children = first :: others := by
  refine List.exists_cons_of_ne_nil fun childless => inner ?_
  rw [childless] at aligned
  exact List.isEmpty_iff.mpr (List.eq_nil_of_length_eq_zero aligned)

theorem text_of_branch (inner : ¬ node.isLeaf = true)
    (aligned : node.children.length = children.length) :
    (Outline.node node.label node.value children).text =
      node.branchText (children.map text) := by
  obtain ⟨first, others, rfl⟩ := exists_cons_of_branch inner aligned
  have opened : node.opening = s!"({node.label}" ++ " " := by
    rw [Node.opening]
    rfl
  have shown : (Outline.node node.label node.value (first :: others)).text =
      s!"({node.label}" ++ textOf (first :: others) ++ ")" := by
    cases node.value <;> rfl
  rw [shown, Node.branchText, List.map_cons, Arena.joined_cons, textOf, textOf_eq, opened]
  simp only [String.append_assoc]

theorem tokens_of_branch (inner : ¬ node.isLeaf = true)
    (aligned : node.children.length = children.length) :
    (Outline.node node.label node.value children).tokens = (children.map tokens).flatten := by
  obtain ⟨first, others, rfl⟩ := exists_cons_of_branch inner aligned
  rw [tokens, tokensOf_eq]

end Nodes

end Outline

namespace Arena

/-! ### Arenas that are filled by calls -/

/-- The children of every node come before it and are counted from the front. -/
structure Grounded (arena : Arena) : Prop where
  downward : arena.Downward
  forward : ∀ (id : Nat) (node : Node), arena.nodes[id]? = some node →
    ∀ child ∈ node.children, 0 ≤ child

theorem empty_grounded : (∅ : Arena).Grounded where
  downward := empty_downward
  forward id node found := by
    simp at found

theorem Grounded.add {arena : Arena} (grounded : arena.Grounded) (label : Symbol)
    (value : Option Symbol) {children : List Int}
    (earlier : ∀ child ∈ children, child < arena.size) (forward : ∀ child ∈ children, 0 ≤ child) :
    (arena.add label value children).Grounded where
  downward := grounded.downward.add label value earlier
  forward id node found := by
    rcases getElem?_add found with old | ⟨rfl, rfl⟩
    · exact grounded.forward id node old
    · exact forward

theorem GrowsTo.grounded {arena other : Arena} (grows : arena.GrowsTo other)
    (grounded : arena.Grounded) : other.Grounded := by
  obtain ⟨calls, forward, rfl⟩ := grows
  induction calls generalizing arena with
  | nil => exact grounded
  | cons call rest inductionHypothesis =>
    obtain ⟨here, later⟩ := List.forall_mem_cons.mp forward
    refine inductionHypothesis ?_ later
    rcases arena.call_cases call with same | ⟨label, value, earlier, added⟩
    · rw [same]
      exact grounded
    · rw [added]
      exact grounded.add label value earlier here

/-- Calls leave the nodes that are there as they are. -/
theorem grown_after (arena : Arena) (calls : List Call) :
    arena.nodes.toList <+: (arena.after calls).nodes.toList := by
  induction calls generalizing arena with
  | nil => exact List.prefix_rfl
  | cons call rest inductionHypothesis =>
    have here : arena.nodes.toList <+: (arena.call call).nodes.toList := by
      rcases arena.call_cases call with same | ⟨label, value, _, added⟩
      · rw [same]
      · rw [added, Arena.add, Array.toList_push]
        exact List.prefix_append _ _
    exact here.trans (inductionHypothesis _)

/-! ### Outlines of nodes -/

section Outlines

variable {arena base other : Arena} {id : Int} {node : Node} {outline : Outline}

theorem Grounded.children (grounded : arena.Grounded) (front : 0 ≤ id)
    (found : arena.node id = .ok node) : ∀ child ∈ node.children, 0 ≤ child ∧ child < id := by
  obtain ⟨place, rfl⟩ := Int.eq_ofNat_of_zero_le front
  rw [node_natCast, valueOr_eq_ok_iff] at found
  intro child member
  exact ⟨grounded.forward place node found child member,
    grounded.downward place node found child member⟩

/-- Every node has an outline. -/
theorem Grounded.exists_outline (grounded : arena.Grounded) {id : Nat}
    (inside : id < arena.size) : ∃ outline, arena.Shows id outline := by
  induction id using Nat.strongRecOn with
  | ind id inductionHypothesis =>
    have found : arena.node id = .ok arena.nodes[id] := by
      simp [Array.getElem?_eq_getElem inside]
    have each : ∀ child ∈ arena.nodes[id].children, ∃ outline, arena.Shows child outline := by
      intro child member
      obtain ⟨front, earlier⟩ := grounded.children (Int.natCast_nonneg id) found child member
      obtain ⟨place, rfl⟩ := Int.eq_ofNat_of_zero_le front
      have before : place < id := Int.ofNat_lt.mp earlier
      exact inductionHypothesis place before (before.trans inside)
    obtain ⟨outlines, aligned, shown⟩ := exists_aligned each
    exact ⟨_, .node id _ outlines found aligned shown⟩

theorem node_of_grown (grown : base.nodes.toList <+: other.nodes.toList) (front : 0 ≤ id)
    (found : base.node id = .ok node) : other.node id = .ok node := by
  obtain ⟨place, rfl⟩ := Int.eq_ofNat_of_zero_le front
  rw [node_natCast, valueOr_eq_ok_iff] at found ⊢
  exact getElem?_of_grown grown found

/-- Nodes that are added later leave an outline as it is. -/
theorem Shows.grown (shows : base.Shows id outline) (grounded : base.Grounded)
    (grown : base.nodes.toList <+: other.nodes.toList) (front : 0 ≤ id) :
    other.Shows id outline := by
  induction shows with
  | node id node children found aligned _ inductionHypothesis =>
    refine .node id node children (node_of_grown grown front found) aligned fun pair member => ?_
    have listed := (List.of_mem_zip member).1
    exact inductionHypothesis pair member (grounded.children front found pair.1 listed).1

/-- The recursive readings read the outline, also when nodes were added later: the descent from a
node passes lower ids only, so it is cut off nowhere. -/
theorem Shows.within (shows : base.Shows id outline) (grounded : base.Grounded)
    (grown : base.nodes.toList <+: other.nodes.toList) (front : 0 ≤ id) {depth : Nat}
    (deep : id < depth) : other.renderWithin depth id = .ok outline.text ∧
      other.leavesWithin depth id = .ok outline.tokens := by
  induction shows generalizing depth with
  | node id node children found aligned _ inductionHypothesis =>
    obtain ⟨below, rfl⟩ : ∃ below, depth = below + 1 := ⟨depth - 1, by omega⟩
    have here := node_of_grown grown front found
    by_cases leaf : node.isLeaf = true
    · rw [renderWithin_of_leaf here leaf, leavesWithin_of_leaf here leaf,
        Outline.text_of_leaf leaf aligned, Outline.tokens_of_leaf leaf aligned]
      exact ⟨rfl, rfl⟩
    · have each : ∀ pair ∈ node.children.zip children,
          other.renderWithin below pair.1 = .ok pair.2.text ∧
            other.leavesWithin below pair.1 = .ok pair.2.tokens := by
        intro pair member
        obtain ⟨childFront, earlier⟩ :=
          grounded.children front found pair.1 (List.of_mem_zip member).1
        exact inductionHypothesis pair member childFront (by omega)
      rw [renderWithin_of_branch here leaf, leavesWithin_of_branch here leaf,
        mapM_aligned Outline.text aligned fun pair member => (each pair member).1,
        mapM_aligned Outline.tokens aligned fun pair member => (each pair member).2,
        Outline.text_of_branch leaf aligned, Outline.tokens_of_branch leaf aligned]
      exact ⟨rfl, rfl⟩

end Outlines

/-! ### Walks by rounds -/

section Walks

variable {arena : Arena} {id : Int} {outline : Outline}

/-- A walk that reads every child as it should reads them all, one after another. -/
theorem leads_children {State Result : Type} (round : State → Except Fault State)
    (state : List Int → List Result → State) (result : Outline → List Result) {ids : List Int}
    {outlines : List Outline} (aligned : ids.length = outlines.length)
    (each : ∀ pair ∈ ids.zip outlines, ∀ rest results,
      Leads round (state (pair.1 :: rest) results) (state rest (results ++ result pair.2)))
    (results : List Result) :
    Leads round (state ids results) (state [] (results ++ (outlines.map result).flatten)) := by
  induction ids generalizing outlines results with
  | nil =>
    rw [List.eq_nil_of_length_eq_zero aligned.symm, List.map_nil, List.flatten_nil,
      List.append_nil]
    exact .refl
  | cons id rest inductionHypothesis =>
    obtain ⟨outline, others, rfl⟩ := List.exists_cons_of_length_eq_add_one aligned.symm
    obtain ⟨here, later⟩ := List.forall_mem_cons.mp each
    rw [List.map_cons, List.flatten_cons, ← List.append_assoc]
    exact (here rest results).trans (inductionHypothesis (Nat.succ_inj.mp aligned) later _)

/-- The rounds of a rendering put the text of an outline behind the parts that are there. The mark
of a node waits behind its children and finds their texts at the end of the parts. -/
theorem Shows.rendered (shows : arena.Shows id outline) (todo : List (Int × Bool))
    (parts : List String) :
    Leads arena.renderRound ⟨(id, false) :: todo, parts⟩ ⟨todo, parts ++ [outline.text]⟩ := by
  induction shows generalizing todo parts with
  | node id node children found aligned _ inductionHypothesis =>
    by_cases leaf : node.isLeaf = true
    · rw [Outline.text_of_leaf leaf aligned]
      exact .single (renderRound_of_leaf found leaf false todo parts)
    · have visited := leads_children arena.renderRound
        (fun ids parts => ⟨(ids.map fun child => (child, false)) ++ (id, true) :: todo, parts⟩)
        (fun outline => [outline.text]) aligned
        (fun pair member rest results => inductionHypothesis pair member _ results) parts
      have texts : (children.map fun outline => [outline.text]).flatten =
          children.map Outline.text := by
        rw [← List.flatMap_def, List.map_eq_flatMap]
      have complete : (children.map Outline.text).length = node.children.length := by
        rw [List.length_map, aligned]
      rw [texts] at visited
      rw [Outline.text_of_branch leaf aligned]
      exact .head (renderRound_of_branch found leaf todo parts)
        (visited.tail (renderRound_of_mark found leaf todo parts complete))

/-- The rounds of a gathering put the tokens of an outline behind those that are there. -/
theorem Shows.gathered (shows : arena.Shows id outline) (todo : List Int)
    (tokens : List Symbol) :
    Leads arena.gatherRound ⟨id :: todo, tokens⟩ ⟨todo, tokens ++ outline.tokens⟩ := by
  induction shows generalizing todo tokens with
  | node id node children found aligned _ inductionHypothesis =>
    by_cases leaf : node.isLeaf = true
    · rw [Outline.tokens_of_leaf leaf aligned]
      exact .single (gatherRound_of_leaf found leaf todo tokens)
    · have visited := leads_children arena.gatherRound
        (fun ids tokens => ⟨ids ++ todo, tokens⟩) Outline.tokens aligned
        (fun pair member rest results => inductionHypothesis pair member _ results) tokens
      rw [Outline.tokens_of_branch leaf aligned]
      exact .head (gatherRound_of_branch found leaf todo tokens) visited

end Walks

/-! ### What is read -/

/-- An id is read as an outline: by recursion and by rounds, as a text and as tokens. The rounds of
a rendering leave one part. -/
structure Reads (arena : Arena) (id : Int) (outline : Outline) : Prop where
  shown : arena.Shows id outline
  render : arena.render id = .ok outline.text
  rendered : Leads arena.renderRound ⟨[(id, false)], []⟩ ⟨[], [outline.text]⟩
  leaves : arena.leaves id = .ok outline.tokens
  gathered : Leads arena.gatherRound ⟨[id], []⟩ ⟨[], outline.tokens⟩

/-- A node is read as its outline, also when nodes were added later. -/
theorem Shows.reads {base other : Arena} {id : Nat} {outline : Outline}
    (shows : base.Shows id outline) (grounded : base.Grounded)
    (grown : base.nodes.toList <+: other.nodes.toList) (inside : id < base.size) :
    other.Reads id outline := by
  have front : (0 : Int) ≤ id := Int.natCast_nonneg id
  have sizes : base.size ≤ other.size := grown.length_le
  have deep : (id : Int) < (other.size + 1 : Nat) := by omega
  obtain ⟨text, tokens⟩ := shows.within grounded grown front deep
  have stays := shows.grown grounded grown front
  exact {
    shown := stays
    render := (render_eq other id).trans text
    rendered := stays.rendered [] []
    leaves := (leaves_eq other id).trans tokens
    gathered := stays.gathered [] [] }

end Arena

/-! ### Forests of runs -/

namespace Simulator

section Runs

variable {simulator : Simulator} {before after first last : Configuration} {step : Step}
  {steps : List Step} {tokens : List Symbol}

/-- A step makes its node by a call. -/
theorem Taken.growsTo (taken : simulator.Taken before step after) :
    before.arena.GrowsTo after.arena := by
  cases taken with
  | shift token rest target =>
    refine ⟨[.leaf token (some token)], ?_, rfl⟩
    exact List.forall_mem_singleton.mpr fun _ member => absurd member List.not_mem_nil
  | reduce token rest named production target more known enough leads earlier =>
    refine ⟨[.internal production.head _ (Arena.branchValue production)],
      List.forall_mem_singleton.mpr fun child member => ?_, (Arena.call_internal earlier _ _).symm⟩
    obtain ⟨node, _, rfl⟩ := List.mem_map.mp member
    exact Int.natCast_nonneg node
  | final => exact .refl _

theorem Reaches.growsTo (reached : simulator.Reaches first steps last) :
    first.arena.GrowsTo last.arena := by
  induction reached with
  | refl => exact .refl _
  | head taken _ _ inductionHypothesis =>
    exact (taken_of_step taken).growsTo.trans inductionHypothesis

/-- The roots of the forest that a step leaves are there after the step. -/
theorem Taken.root_lt (taken : simulator.Taken before step after) (lawful : Lawful tokens before)
    {root : Nat} (member : root ∈ step.forest) : root < after.arena.size := by
  obtain ⟨frame, inside, rfl⟩ := List.mem_map.mp member
  have listed := List.mem_reverse.mp inside
  have labelled : after.arena.nodes[frame.node]?.map Node.label = some frame.symbol := by
    cases taken with
    | shift => exact lawful.labelled_add _ _ _ _ (List.Subset.refl _) frame listed
    | reduce => exact lawful.labelled_add _ _ _ _ (List.drop_subset _ _) frame listed
    | final => exact lawful.labelled frame listed
  obtain ⟨node, found, _⟩ := Option.map_eq_some_iff.mp labelled
  exact (Array.getElem?_eq_some_iff.mp found).1

/-- The configurations around a step of a finished run, with the calls in front of the step and
those behind it. -/
theorem exists_growing {limit place : Nat} {trace : Trace}
    (finished : simulator.runFrom limit (initial tokens) = .ok (some trace))
    (found : trace.steps[place]? = some step) :
    ∃ before after, simulator.Reaches (initial tokens) (trace.steps.take place) before ∧
      simulator.step before = .ok (step, after) ∧ (∅ : Arena).GrowsTo after.arena ∧
      after.arena.GrowsTo trace.arena := by
  obtain ⟨earlier, final, ending, steps, reached, ended, _, arena⟩ := reaches_of_runFrom finished
  rw [steps] at found
  obtain ⟨before, after, front, taken, place⟩ := reached.step_at ended found
  have grows := front.growsTo.trans (taken_of_step taken).growsTo
  refine ⟨before, after, steps ▸ front, taken, grows, ?_⟩
  rw [arena]
  rcases place with ⟨_, _, later⟩ | ⟨_, _, _, rfl⟩
  · exact later.growsTo.trans (taken_of_step ended).growsTo
  · exact .refl _

end Runs

end Simulator

/-- Every node of an arena is read as its outline, whatever is added later. The arena of a trace is
what the arena after each of its steps becomes, so the forest of a step is read in it as it was when
the step was taken. -/
theorem Arena.outlines_read :
    (∀ arena : Arena, (∅ : Arena).GrowsTo arena → ∀ id : Nat, id < arena.size →
      ∃ outline : Outline, ∀ more : List Call, (arena.after more).Reads id outline) ∧
    ∀ (simulator : Simulator) (limit : Nat) (input : Input) (trace : Trace) (place : Nat)
      (step : Step), simulator.run limit input = .ok (some trace) →
      trace.steps[place]? = some step →
      ∃ before after : Configuration,
        simulator.Reaches (Simulator.initial input.toTokens) (trace.steps.take place) before ∧
        simulator.step before = .ok (step, after) ∧
        (∅ : Arena).GrowsTo after.arena ∧ after.arena.GrowsTo trace.arena ∧
        ∃ outlines : List Outline, step.forest.length = outlines.length ∧
          (∀ pair ∈ step.forest.zip outlines,
            after.arena.Reads pair.1 pair.2 ∧ trace.arena.Reads pair.1 pair.2) ∧
          (step.forest.mapM fun root : Nat => after.arena.render root) =
            .ok (outlines.map Outline.text) ∧
          trace.render step = .ok (outlines.map Outline.text) := by
  constructor
  · intro arena grows id inside
    have grounded := grows.grounded empty_grounded
    obtain ⟨outline, shows⟩ := grounded.exists_outline inside
    exact ⟨outline, fun more => shows.reads grounded (grown_after arena more) inside⟩
  · intro simulator limit input trace place step finished found
    obtain ⟨before, after, reached, taken, grows, later⟩ := Simulator.exists_growing finished found
    obtain ⟨lawful, _, _⟩ := reached.lawful (Simulator.initial_lawful _)
    have grounded := grows.grounded empty_grounded
    have grown : after.arena.nodes.toList <+: trace.arena.nodes.toList := by
      obtain ⟨calls, _, same⟩ := later
      rw [same]
      exact grown_after after.arena calls
    have each : ∀ root ∈ step.forest, ∃ outline : Outline,
        after.arena.Reads root outline ∧ trace.arena.Reads root outline := by
      intro root member
      have inside := (Simulator.taken_of_step taken).root_lt lawful member
      obtain ⟨outline, shows⟩ := grounded.exists_outline inside
      exact ⟨outline, shows.reads grounded List.prefix_rfl inside,
        shows.reads grounded grown inside⟩
    obtain ⟨outlines, aligned, read⟩ := exists_aligned each
    exact ⟨before, after, reached, taken, grows, later, outlines, aligned, read,
      mapM_aligned Outline.text aligned fun pair member => (read pair member).1.render,
      mapM_aligned Outline.text aligned fun pair member => (read pair member).2.render⟩

/-- An arena with a node that is a child twice, and with one that has an empty body. -/
def Arena.shared : Arena :=
  (∅ : Arena).after [.leaf "a" (some "a"), .internal "E" [] (some Symbol.epsilon),
    .leaf "n" (some "7"), .internal "P" [0, 1, 2, 0] none]

/-- Calls that count from the back or are refused leave what is read of a node as it was. In a run,
what two shifts left is read the same once they were reduced. -/
theorem Arena.outlines_read_shared :
    (∃ outline : Outline, outline.text = "(P a (E ε) (n 7) a)" ∧ outline.tokens = ["a", "7", "a"] ∧
      (shared.after [.internal "Q" [-1, 3] none, .internal "R" [9] none]).Reads 3 outline) ∧
    ∃ trace step before after, Simulator.crooked.run 4 (.tokens ["a", "a"]) = .ok (some trace) ∧
      trace.steps[1]? = some step ∧ step.forest = [0, 1] ∧ trace.arena.size = 3 ∧
      Simulator.crooked.step before = .ok (step, after) ∧
      trace.render step = step.forest.mapM fun root : Nat => after.arena.render root := by
  obtain ⟨still, recorded⟩ := outlines_read
  constructor
  · have grows : (∅ : Arena).GrowsTo shared := ⟨_, by decide, rfl⟩
    obtain ⟨outline, stays⟩ := still shared grows 3 (by decide)
    have reads := stays [.internal "Q" [-1, 3] none, .internal "R" [9] none]
    have text : (shared.after [.internal "Q" [-1, 3] none, .internal "R" [9] none]).render 3 =
        .ok "(P a (E ε) (n 7) a)" := by
      rw [render_eq]
      decide +kernel
    have tokens : (shared.after [.internal "Q" [-1, 3] none, .internal "R" [9] none]).leaves 3 =
        .ok ["a", "7", "a"] := by
      rw [leaves_eq]
      decide +kernel
    exact ⟨outline, Except.ok.inj (reads.render.symm.trans text),
      Except.ok.inj (reads.leaves.symm.trans tokens), reads⟩
  · have evaluated : (Simulator.crooked.run 4 (.tokens ["a", "a"])).toOption.join.map (fun trace =>
        (trace.steps[1]?.map Step.forest, trace.arena.size)) = some (some [0, 1], 3) := by
      decide +kernel
    obtain ⟨trace, finished, shown⟩ := Simulator.exists_trace evaluated
    obtain ⟨forest, size⟩ := Prod.mk.inj shown
    obtain ⟨step, found, roots⟩ := Option.map_eq_some_iff.mp forest
    obtain ⟨before, after, _, taken, _, _, _, _, _, whenTaken, atEnd⟩ :=
      recorded _ _ _ trace 1 step finished found
    exact ⟨trace, step, before, after, finished, found, roots, size, taken,
      atEnd.trans whenTaken.symm⟩

end ShiftReduce
