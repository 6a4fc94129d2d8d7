/-
This file proves which arenas stay without cycles. A child id that counts from the front names one
earlier node for ever. One that counts from the back is accepted as well, but names another node
after every further call: sooner or later its own parent, or a node that was made from it. An arena
therefore stays acyclic, and all its walks end, whatever is added to it with ids that count from
the front, exactly if none of its own child ids counts from the back.
-/

import Mathlib.Tactic.TFAE
import ShiftReduce.Proofs.Outlines

namespace ShiftReduce

namespace Arena

/-! ### What an id names -/

section Names

variable {arena : Arena} {id : Int} {node : Node}

/-- An id names the node at a place if it is that place, counted from the front or from the back. -/
theorem node_eq_ok_iff : arena.node id = .ok node ↔ ∃ place : Nat,
    arena.nodes[place]? = some node ∧ (id = place ∨ id + arena.size = place) := by
  rw [Arena.node, valueOr_eq_ok_iff, Option.bind_eq_some_iff]
  constructor
  · rintro ⟨place, named, found⟩
    refine ⟨place, found, ?_⟩
    unfold Position.resolve at named
    split at named
    · split at named
      · rw [← Option.some_inj.mp named]
        omega
      · cases named
    · split at named
      · rw [← Option.some_inj.mp named]
        omega
      · cases named
  · rintro ⟨place, found, named⟩
    have inside : place < arena.size := (Array.getElem?_eq_some_iff.mp found).1
    refine ⟨place, ?_, found⟩
    unfold Position.resolve
    rcases named with rfl | counted
    · rw [if_pos (Int.natCast_nonneg place), if_pos (Int.ofNat_lt.mpr inside), Int.toNat_natCast]
    · rw [if_neg (by omega), if_pos (by omega), Option.some_inj]
      omega

end Names

/-- One node is a child of another if a child id of the other names it. -/
def IsChild (arena : Arena) (child parent : Node) : Prop :=
  parent ∈ arena.nodes ∧ ∃ id ∈ parent.children, arena.node id = .ok child

/-- No node is among its own descendants. -/
def Acyclic (arena : Arena) : Prop :=
  ∀ node, ¬ Relation.TransGen arena.IsChild node node

/-- All child ids count from the front. -/
def Forward (arena : Arena) : Prop :=
  ∀ parent ∈ arena.nodes, ∀ id ∈ parent.children, 0 ≤ id

/-- Every child id names a node that was added before its parent, and after any calls the same
one. -/
def Descends (arena : Arena) : Prop :=
  ∀ parent ∈ arena.nodes, ∀ id ∈ parent.children, ∃ child : Node, child.id < parent.id ∧
    ∀ more : List Call, (arena.after more).node id = .ok child

/-! ### Arenas that are filled by any calls -/

/-- The nodes are numbered by their places, and no child id is as large as the id of its parent. -/
structure Filled (arena : Arena) : Prop where
  numbered : ∀ (place : Nat) (node : Node), arena.nodes[place]? = some node → node.id = place
  downward : arena.Downward

theorem empty_filled : (∅ : Arena).Filled where
  numbered place node found := by
    simp at found
  downward := empty_downward

section Filling

variable {arena base other : Arena} {parent child : Node} {id : Int}

theorem Filled.add (filled : arena.Filled) (label : Symbol) (value : Option Symbol)
    {children : List Int} (earlier : ∀ child ∈ children, child < arena.size) :
    (arena.add label value children).Filled where
  numbered place node found := by
    rcases getElem?_add found with old | ⟨rfl, rfl⟩
    · exact filled.numbered place node old
    · rfl
  downward := filled.downward.add label value earlier

theorem Filled.call (filled : arena.Filled) (call : Call) : (arena.call call).Filled := by
  rcases arena.call_cases call with same | ⟨label, value, earlier, added⟩
  · rw [same]
    exact filled
  · rw [added]
    exact filled.add label value earlier

theorem Filled.after (filled : arena.Filled) (calls : List Call) : (arena.after calls).Filled := by
  induction calls generalizing arena with
  | nil => exact filled
  | cons call rest inductionHypothesis => exact inductionHypothesis (filled.call call)

theorem Filled.getElem?_of_mem (filled : arena.Filled) (member : parent ∈ arena.nodes) :
    ∃ place : Nat, arena.nodes[place]? = some parent ∧ parent.id = place := by
  obtain ⟨place, inside, found⟩ := Array.mem_iff_getElem.mp member
  have stored : arena.nodes[place]? = some parent := by
    rw [Array.getElem?_eq_getElem inside, found]
  exact ⟨place, stored, filled.numbered place parent stored⟩

/-- A node is named by its id, also when nodes were added later. -/
theorem Filled.node_id (filled : base.Filled) (member : parent ∈ base.nodes)
    (grown : base.nodes.toList <+: other.nodes.toList) : other.node parent.id = .ok parent := by
  obtain ⟨place, stored, numbered⟩ := filled.getElem?_of_mem member
  exact node_eq_ok_iff.mpr ⟨place, getElem?_of_grown grown stored, .inl numbered⟩

/-- No child id is as large as the id of its parent. -/
theorem Filled.child_lt (filled : arena.Filled) (member : parent ∈ arena.nodes)
    (listed : id ∈ parent.children) : id < parent.id := by
  obtain ⟨place, stored, numbered⟩ := filled.getElem?_of_mem member
  rw [numbered]
  exact filled.downward place parent stored id listed

/-- A child id that counts from the front names one earlier node, whatever is added. -/
theorem Filled.exists_child (filled : arena.Filled) (member : parent ∈ arena.nodes)
    (listed : id ∈ parent.children) (front : 0 ≤ id) : ∃ child : Node, child.id = id ∧
      child.id < parent.id ∧ ∀ more : List Call, (arena.after more).node id = .ok child := by
  obtain ⟨place, rfl⟩ := Int.eq_ofNat_of_zero_le front
  have before := filled.child_lt member listed
  obtain ⟨own, stored, numbered⟩ := filled.getElem?_of_mem member
  have inside : own < arena.nodes.size := (Array.getElem?_eq_some_iff.mp stored).1
  have found : arena.nodes[place]? = some arena.nodes[place] :=
    Array.getElem?_eq_getElem (by omega)
  have named := filled.numbered place _ found
  refine ⟨_, named, named ▸ before, fun more => ?_⟩
  exact node_eq_ok_iff.mpr
    ⟨place, getElem?_of_grown (grown_after arena more) found, .inl rfl⟩

/-- An id that counts from the back names the node that far from the end. -/
theorem Filled.id_of_back (filled : arena.Filled) (back : id < 0)
    (named : arena.node id = .ok child) : child.id = arena.size + id := by
  obtain ⟨place, found, counted⟩ := node_eq_ok_iff.mp named
  rw [filled.numbered place child found]
  omega

/-- Child ids that count from the front, and nothing else, keep an arena grounded. -/
theorem Filled.grounded (filled : arena.Filled) (forward : arena.Forward) : arena.Grounded where
  downward := filled.downward
  forward _ node found := forward node (Array.mem_of_getElem? found)

theorem Filled.forward (filled : arena.Filled) (grounded : arena.Grounded) : arena.Forward := by
  intro parent member
  obtain ⟨place, stored, _⟩ := filled.getElem?_of_mem member
  exact grounded.forward place parent stored

/-- In a grounded arena the walks from any node end and read its outline. -/
theorem Filled.exists_reads (filled : arena.Filled) (grounded : arena.Grounded)
    (member : parent ∈ arena.nodes) : ∃ outline, arena.Reads parent.id outline := by
  obtain ⟨place, stored, numbered⟩ := filled.getElem?_of_mem member
  have inside : place < arena.size := (Array.getElem?_eq_some_iff.mp stored).1
  obtain ⟨outline, shows⟩ := grounded.exists_outline inside
  exact ⟨outline, numbered ▸ shows.reads grounded List.prefix_rfl inside⟩

end Filling

/-! ### Walks that end -/

section Ends

variable {arena : Arena} {id : Int} {node : Node} {outline : Outline}

/-- A node with children that all have outlines has one. -/
theorem exists_shows (found : arena.node id = .ok node)
    (each : ∀ child ∈ node.children, ∃ outline, arena.Shows child outline) :
    ∃ outline, arena.Shows id outline := by
  obtain ⟨outlines, aligned, shown⟩ := exists_aligned each
  exact ⟨_, .node id node outlines found aligned shown⟩

theorem exists_shows_of_leaf (found : arena.node id = .ok node) (leaf : node.isLeaf = true) :
    ∃ outline, arena.Shows id outline := by
  refine exists_shows found fun child member => ?_
  rw [List.isEmpty_iff.mp leaf] at member
  cases member

theorem not_isLeaf {first : Int} {others : List Int} (shape : node.children = first :: others) :
    ¬ node.isLeaf = true := by
  rw [Node.isLeaf, shape]
  exact Bool.false_ne_true

/-- When a rendering has nothing left to visit, every node that was waiting has an outline. A round
takes away one visit only, and puts the children of its node in front of the others. -/
theorem exists_shows_of_rendered {state : Rendering} {parts : List String}
    (ended : Leads arena.renderRound state ⟨[], parts⟩) :
    ∀ id, (id, false) ∈ state.todo → ∃ outline, arena.Shows id outline := by
  induction ended using Relation.ReflTransGen.head_induction_on with
  | refl => exact fun _ member => absurd member List.not_mem_nil
  | @head state next taken _ inductionHypothesis =>
    obtain ⟨todo, parts⟩ := state
    cases todo with
    | nil => exact fun _ member => absurd member List.not_mem_nil
    | cons visit rest =>
      obtain ⟨id, marked⟩ := visit
      obtain ⟨node, found, taken⟩ := bind_eq_ok_iff.mp taken
      by_cases leaf : node.isLeaf = true
      · rw [if_pos leaf] at taken
        cases taken
        rintro other (_ | ⟨_, later⟩)
        · exact exists_shows_of_leaf found leaf
        · exact inductionHypothesis other later
      · rw [if_neg leaf] at taken
        cases marked with
        | true =>
          cases taken
          intro other member
          exact inductionHypothesis other ((List.mem_cons.mp member).resolve_left nofun)
        | false =>
          cases taken
          rintro other (_ | ⟨_, later⟩)
          · refine exists_shows found fun child member => inductionHypothesis child ?_
            exact List.mem_append_left _ (List.mem_map_of_mem member)
          · exact inductionHypothesis other
              (List.mem_append_right _ (List.mem_cons_of_mem _ later))

/-- When a gathering has nothing left to visit, every node that was waiting has an outline. -/
theorem exists_shows_of_gathered {state : Gathering} {tokens : List Symbol}
    (ended : Leads arena.gatherRound state ⟨[], tokens⟩) :
    ∀ id ∈ state.todo, ∃ outline, arena.Shows id outline := by
  induction ended using Relation.ReflTransGen.head_induction_on with
  | refl => exact fun _ member => absurd member List.not_mem_nil
  | @head state next taken _ inductionHypothesis =>
    obtain ⟨todo, tokens⟩ := state
    cases todo with
    | nil => exact fun _ member => absurd member List.not_mem_nil
    | cons id rest =>
      obtain ⟨node, found, taken⟩ := bind_eq_ok_iff.mp taken
      by_cases leaf : node.isLeaf = true
      · rw [if_pos leaf] at taken
        cases taken
        exact List.forall_mem_cons.mpr ⟨exists_shows_of_leaf found leaf, inductionHypothesis⟩
      · rw [if_neg leaf] at taken
        cases taken
        obtain ⟨children, later⟩ := List.forall_mem_append.mp inductionHypothesis
        exact List.forall_mem_cons.mpr ⟨exists_shows found children, later⟩

/-- Where the first child of a node is the node itself, a rendering visits it for ever. -/
theorem rendered_endless {first : Int} {others : List Int} (found : arena.node id = .ok node)
    (shape : node.children = first :: others) (again : arena.node first = .ok node)
    {state : Rendering} (leads : Leads arena.renderRound ⟨[(id, false)], []⟩ state) :
    ∃ next todo, state.todo = (next, false) :: todo ∧ arena.node next = .ok node := by
  induction leads with
  | refl => exact ⟨id, [], rfl, found⟩
  | @tail state next _ taken inductionHypothesis =>
    obtain ⟨visit, rest, waiting, here⟩ := inductionHypothesis
    obtain ⟨_, parts⟩ := state
    subst waiting
    rw [renderRound_of_branch here (not_isLeaf shape), shape] at taken
    cases taken
    exact ⟨first, _, rfl, again⟩

/-- Where the first child of a node is the node itself, a gathering visits it for ever. -/
theorem gathered_endless {first : Int} {others : List Int} (found : arena.node id = .ok node)
    (shape : node.children = first :: others) (again : arena.node first = .ok node)
    {state : Gathering} (leads : Leads arena.gatherRound ⟨[id], []⟩ state) :
    ∃ next todo, state.todo = next :: todo ∧ arena.node next = .ok node := by
  induction leads with
  | refl => exact ⟨id, [], rfl, found⟩
  | @tail state next _ taken inductionHypothesis =>
    obtain ⟨visit, rest, waiting, here⟩ := inductionHypothesis
    obtain ⟨_, tokens⟩ := state
    subst waiting
    rw [gatherRound_of_branch here (not_isLeaf shape), shape] at taken
    cases taken
    exact ⟨first, _, rfl, again⟩

/-- Descending from a node with an outline ends. -/
theorem Shows.acc (shows : arena.Shows id outline) (found : arena.node id = .ok node) :
    Acc arena.IsChild node := by
  induction shows generalizing node with
  | node id other children otherFound aligned _ inductionHypothesis =>
    obtain rfl := Except.ok.inj (found.symm.trans otherFound)
    refine Acc.intro _ fun child isChild => ?_
    obtain ⟨_, childId, listed, named⟩ := isChild
    obtain ⟨place, placed⟩ := List.getElem?_of_mem listed
    have inside : place < children.length := aligned ▸ (List.getElem?_eq_some_iff.mp placed).1
    have paired : (childId, children[place]) ∈ node.children.zip children :=
      List.mem_of_getElem?
        (List.getElem?_zip_eq_some.mpr ⟨placed, List.getElem?_eq_getElem inside⟩)
    exact inductionHypothesis _ paired named

/-- Where every node has an outline, no node is among its own descendants. -/
theorem Filled.acyclic (filled : arena.Filled)
    (each : ∀ node ∈ arena.nodes, ∃ outline, arena.Shows node.id outline) : arena.Acyclic := by
  intro node cycle
  have member : node ∈ arena.nodes := by
    cases cycle with
    | single isChild => exact isChild.1
    | tail _ isChild => exact isChild.1
  obtain ⟨outline, shows⟩ := each node member
  have accessible := (shows.acc (filled.node_id member List.prefix_rfl)).transGen
  clear shows member
  induction accessible with
  | intro node _ inductionHypothesis => exact inductionHypothesis node cycle cycle

end Ends

/-! ### Child ids that count from the back -/

section Backward

variable {arena : Arena} {parent : Node} {id : Int}

/-- Calls that make a node from another, and then the leaves behind which an id that counts from the
back names the new node. -/
def closing (parent id : Int) : List Call :=
  .internal "" [parent] none :: List.replicate (-id - 1).toNat (.leaf "" none)

@[simp] theorem size_after_leaves (arena : Arena) (count : Nat) :
    (arena.after (List.replicate count (.leaf "" none))).size = arena.size + count := by
  induction count generalizing arena with
  | zero => rfl
  | succ count inductionHypothesis =>
    have split : arena.after (List.replicate (count + 1) (.leaf "" none)) =
        (arena.leaf "" none).after (List.replicate count (.leaf "" none)) := rfl
    rw [split, inductionHypothesis, Arena.leaf, size_add]
    omega

theorem after_closing {number : Int} (earlier : number < arena.size) (id : Int) :
    (arena.after (closing number id)).nodes[arena.size]? = some ⟨arena.size, "", none, [number]⟩ ∧
      (arena.after (closing number id)).size = arena.size + 1 + (-id - 1).toNat := by
  have split : arena.after (closing number id) =
      (arena.add "" none [number]).after (List.replicate (-id - 1).toNat (.leaf "" none)) := by
    rw [← call_internal (List.forall_mem_singleton.mpr earlier)]
    rfl
  rw [split]
  refine ⟨getElem?_of_grown (grown_after _ _) Array.getElem?_push_size, ?_⟩
  simp

/-- An id that counts from the back comes to name a node that is made from its parent. The two nodes
are then each other's children, one by its id and the other by its distance from the end. -/
theorem Filled.exists_cycle (filled : arena.Filled) (member : parent ∈ arena.nodes)
    (listed : id ∈ parent.children) (back : id < 0) :
    ∃ other, arena.GrowsTo other ∧ ¬ other.Acyclic := by
  obtain ⟨place, stored, numbered⟩ := filled.getElem?_of_mem member
  have inside : place < arena.size := (Array.getElem?_eq_some_iff.mp stored).1
  have before : parent.id < arena.size := by omega
  obtain ⟨made, sized⟩ := after_closing before id
  have kept := getElem?_of_grown (grown_after arena (closing parent.id id)) stored
  have down : (arena.after (closing parent.id id)).IsChild ⟨arena.size, "", none, [parent.id]⟩
      parent :=
    ⟨Array.mem_of_getElem? kept, id, listed,
      node_eq_ok_iff.mpr ⟨arena.size, made, .inr (by omega)⟩⟩
  have up : (arena.after (closing parent.id id)).IsChild parent
      ⟨arena.size, "", none, [parent.id]⟩ :=
    ⟨Array.mem_of_getElem? made, parent.id, List.mem_singleton_self _,
      node_eq_ok_iff.mpr ⟨place, kept, .inl numbered⟩⟩
  refine ⟨_, ⟨closing parent.id id, ?_, rfl⟩, fun acyclic =>
    acyclic parent (.tail (.single up) down)⟩
  refine List.forall_mem_cons.mpr ⟨List.forall_mem_singleton.mpr (by omega), fun call filler => ?_⟩
  rw [List.eq_of_mem_replicate filler]
  exact fun _ none => absurd none List.not_mem_nil

/-- An id that counts from the back names another node, or none, after a further call. -/
theorem Filled.not_named_for_ever (filled : arena.Filled) (back : id < 0) (child : Node) :
    ¬ ∀ more : List Call, (arena.after more).node id = .ok child := by
  intro named
  have now := filled.id_of_back back (named [])
  have later := (filled.call (.leaf "" none)).id_of_back back (named [.leaf "" none])
  have sized : (arena.call (.leaf "" none)).size = arena.size + 1 := size_add _ _ _ _
  have same : (arena.size : Int) + id = (arena.size + 1 : Nat) + id := by
    rw [← sized, ← later]
    exact now.symm
  omega

end Backward

/-! ### Calls and the arenas they lead to -/

/-- How an arena takes a call, and what its child ids name then and later. -/
structure Takes (arena : Arena) : Prop where
  numbered : ∀ (place : Nat) (node : Node), arena.nodes[place]? = some node → node.id = place
  refused : ∀ label children value, (∃ child ∈ children, (arena.size : Int) ≤ child) →
    arena.internal label children value = .error .laterChild ∧
      arena.call (.internal label children value) = arena
  added : ∀ label children value, (∀ child ∈ children, child < (arena.size : Int)) →
    arena.internal label children value = .ok (arena.add label value children) ∧
      arena.call (.internal label children value) = arena.add label value children
  front : ∀ parent ∈ arena.nodes, ∀ id ∈ parent.children, 0 ≤ id → ∃ child : Node,
    child.id = id ∧ child.id < parent.id ∧
      ∀ more : List Call, (arena.after more).node id = .ok child
  back : ∀ parent ∈ arena.nodes, ∀ id ∈ parent.children, id < 0 → ∀ (more : List Call)
    (child : Node), (arena.after more).node id = .ok child → child.id = (arena.after more).size + id

theorem Filled.takes {arena : Arena} (filled : arena.Filled) : arena.Takes where
  numbered := filled.numbered
  refused label children value late := by
    obtain ⟨child, member, beyond⟩ := late
    have refused : arena.internal label children value = .error .laterChild := by
      refine if_neg fun checked => ?_
      have earlier := of_decide_eq_true (List.all_eq_true.mp checked child member)
      omega
    exact ⟨refused, by rw [Arena.call, refused]⟩
  added label children value earlier :=
    ⟨internal_eq_ok_iff.mpr ⟨earlier, rfl⟩, call_internal earlier label value⟩
  front _ member _ listed front := filled.exists_child member listed front
  back _ _ _ _ back more _ named := (filled.after more).id_of_back back named

/-- Calls whose ids all count from the front make an arena whose child ids do. Whatever the calls
are, if the child ids count from the front then each of them names one earlier node for ever, and
whatever is added with such ids, no cycle arises and all walks end; and if one of them counts from
the back, none of this holds. -/
theorem acyclic_iff_forward (calls : List Call) :
    ((∅ : Arena).after calls).Takes ∧
    ((∀ call ∈ calls, ∀ child ∈ call.children, 0 ≤ child) → ((∅ : Arena).after calls).Forward) ∧
    List.TFAE [
      ((∅ : Arena).after calls).Forward,
      ((∅ : Arena).after calls).Descends,
      ∀ other, ((∅ : Arena).after calls).GrowsTo other → other.Acyclic,
      ∀ other, ((∅ : Arena).after calls).GrowsTo other → ∀ node ∈ other.nodes,
        ∃ outline, other.Reads node.id outline,
      ∀ other, ((∅ : Arena).after calls).GrowsTo other → ∀ node ∈ other.nodes,
        ∃ parts, Leads other.renderRound ⟨[(node.id, false)], []⟩ ⟨[], parts⟩,
      ∀ other, ((∅ : Arena).after calls).GrowsTo other → ∀ node ∈ other.nodes,
        ∃ tokens, Leads other.gatherRound ⟨[node.id], []⟩ ⟨[], tokens⟩] := by
  have filled := empty_filled.after calls
  have grows {other : Arena} (later : ((∅ : Arena).after calls).GrowsTo other) : other.Filled := by
    obtain ⟨more, _, rfl⟩ := later
    exact filled.after more
  refine ⟨filled.takes, fun forward => ?_, ?_⟩
  · have grown : (∅ : Arena).GrowsTo ((∅ : Arena).after calls) := ⟨calls, forward, rfl⟩
    exact filled.forward (grown.grounded empty_grounded)
  · tfae_have 1 → 2 := by
      intro forward parent member id listed
      obtain ⟨child, _, before, named⟩ :=
        filled.exists_child member listed (forward parent member id listed)
      exact ⟨child, before, named⟩
    tfae_have 2 → 1 := by
      intro descends parent member id listed
      obtain ⟨child, _, named⟩ := descends parent member id listed
      exact not_lt.mp fun back => filled.not_named_for_ever back child named
    tfae_have 1 → 4 := by
      intro forward other later node member
      exact (grows later).exists_reads (later.grounded (filled.grounded forward)) member
    tfae_have 4 → 5 := by
      intro read other later node member
      obtain ⟨outline, reads⟩ := read other later node member
      exact ⟨_, reads.rendered⟩
    tfae_have 4 → 6 := by
      intro read other later node member
      obtain ⟨outline, reads⟩ := read other later node member
      exact ⟨_, reads.gathered⟩
    tfae_have 5 → 3 := by
      intro ends other later
      refine (grows later).acyclic fun node member => ?_
      obtain ⟨parts, ended⟩ := ends other later node member
      exact exists_shows_of_rendered ended node.id List.mem_cons_self
    tfae_have 6 → 3 := by
      intro ends other later
      refine (grows later).acyclic fun node member => ?_
      obtain ⟨tokens, ended⟩ := ends other later node member
      exact exists_shows_of_gathered ended node.id List.mem_cons_self
    tfae_have 3 → 1 := by
      intro acyclic parent member id listed
      refine not_lt.mp fun back => ?_
      obtain ⟨other, later, cycle⟩ := filled.exists_cycle member listed back
      exact cycle (acyclic other later)
    tfae_finish

/-- Two nodes over a leaf that they share. -/
def pile : List Call :=
  [.leaf "a" none, .internal "E" [0, 0] none, .internal "F" [1, 0] none]

/-- A leaf, and a node whose child id counts from the back. -/
def looped : List Call :=
  [.leaf "a" none, .internal "E" [-1] none]

/-- A call that names a node to come is refused, and what the other calls made is read. A child id
that counts from the back gives rise to a cycle. -/
theorem acyclic_iff_forward_piled :
    ((∅ : Arena).after pile).call (.internal "G" [0, 3] none) = (∅ : Arena).after pile ∧
    (∃ child : Node, child.id = 1 ∧
      ∀ more : List Call, (((∅ : Arena).after pile).after more).node 1 = .ok child) ∧
    (∃ outline, ((∅ : Arena).after pile).Reads 2 outline ∧ outline.tokens = ["a", "a", "a"]) ∧
    ∃ other, ((∅ : Arena).after looped).GrowsTo other ∧ ¬ other.Acyclic := by
  obtain ⟨takes, forward, same⟩ := acyclic_iff_forward pile
  obtain ⟨_, _, broken⟩ := acyclic_iff_forward looped
  have top : (⟨2, "F", none, [1, 0]⟩ : Node) ∈ ((∅ : Arena).after pile).nodes :=
    Array.mem_of_getElem? (i := 2) rfl
  have back : (⟨1, "E", none, [-1]⟩ : Node) ∈ ((∅ : Arena).after looped).nodes :=
    Array.mem_of_getElem? (i := 1) rfl
  refine ⟨(takes.refused "G" [0, 3] none ⟨3, by decide, by decide⟩).2, ?_, ?_, ?_⟩
  · obtain ⟨child, named, _, stays⟩ := takes.front _ top 1 (by decide) (by decide)
    exact ⟨child, named, stays⟩
  · have read : ∀ other, ((∅ : Arena).after pile).GrowsTo other → ∀ node ∈ other.nodes,
        ∃ outline, other.Reads node.id outline := (same.out 0 3).mp (forward (by decide))
    obtain ⟨outline, reads⟩ := read _ (.refl _) _ top
    have tokens : ((∅ : Arena).after pile).leaves 2 = .ok ["a", "a", "a"] := by
      rw [leaves_eq]
      decide +kernel
    exact ⟨outline, reads, Except.ok.inj (reads.leaves.symm.trans tokens)⟩
  · by_contra acyclic
    simp only [not_exists, not_and, not_not] at acyclic
    have front : ((∅ : Arena).after looped).Forward := (broken.out 2 0).mp acyclic
    exact absurd (front _ back (-1) (by decide)) (by decide)

/-- Both walks visit the node that is its own child for ever. With a leaf more, the leaf is its
child. -/
theorem looped_endless :
    (¬ ∀ calls : List Call, ((∅ : Arena).after calls).Descends) ∧
    (¬ ∀ calls : List Call, ((∅ : Arena).after calls).Acyclic) ∧
    (∀ state, Leads ((∅ : Arena).after looped).renderRound ⟨[(1, false)], []⟩ state →
      state.todo ≠ []) ∧
    (∀ state, Leads ((∅ : Arena).after looped).gatherRound ⟨[1], []⟩ state → state.todo ≠ []) ∧
    (((∅ : Arena).after looped).call (.leaf "b" none)).render 1 = .ok "(E b)" := by
  have own : ((∅ : Arena).after looped).node (-1) = .ok ⟨1, "E", none, [-1]⟩ := by decide
  have first : ((∅ : Arena).after looped).node 1 = .ok ⟨1, "E", none, [-1]⟩ := by decide
  have member : (⟨1, "E", none, [-1]⟩ : Node) ∈ ((∅ : Arena).after looped).nodes :=
    Array.mem_of_getElem? (i := 1) rfl
  refine ⟨fun descends => ?_, fun acyclic => ?_, fun state leads => ?_, fun state leads => ?_, ?_⟩
  · obtain ⟨child, _, stays⟩ := descends looped _ member (-1) (by decide)
    exact (empty_filled.after looped).not_named_for_ever (by decide) child stays
  · exact acyclic looped _ (.single ⟨member, -1, by decide, own⟩)
  · obtain ⟨_, _, waiting, _⟩ := rendered_endless first rfl own leads
    rw [waiting]
    exact List.cons_ne_nil _ _
  · obtain ⟨_, _, waiting, _⟩ := gathered_endless first rfl own leads
    rw [waiting]
    exact List.cons_ne_nil _ _
  · rw [render_eq]
    decide +kernel

end Arena

end ShiftReduce
