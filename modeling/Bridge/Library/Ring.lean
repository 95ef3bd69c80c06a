import Mathlib.Data.List.Chain
import Mathlib.Data.List.Iterate
import Mathlib.Data.List.Nodup

namespace Ring

variable {Node : Type}

/-- The two pointers of every node. -/
structure Links (Node : Type) where
  next : Node → Node
  prev : Node → Node

def Adjacent (l : Links Node) (a b : Node) : Prop := l.next a = b ∧ l.prev b = a

/-- The nodes, in order, of the doubly linked ring through `head`. -/
structure Closed (l : Links Node) (head : Node) (nodes : List Node) : Prop where
  chain : (head :: (nodes ++ [head])).IsChain (Adjacent l)
  distinct : (head :: nodes).Nodup

theorem chain_frame {l l' : Links Node} {path : List Node} (chain : path.IsChain (Adjacent l))
    (next : ∀ x ∈ path.dropLast, l'.next x = l.next x) (prev : ∀ x ∈ path.tail, l'.prev x = l.prev x) :
    path.IsChain (Adjacent l') := by
  induction path with
  | nil => exact .nil
  | cons a rest ih =>
    cases rest with
    | nil => exact .singleton a
    | cons b rest =>
      obtain ⟨⟨forth, back⟩, chain⟩ := List.isChain_cons_cons.mp chain
      apply List.isChain_cons_cons.mpr
      refine ⟨⟨?_, ?_⟩, ih chain ?_ ?_⟩
      · rw [next a List.mem_cons_self, forth]
      · rw [prev b List.mem_cons_self, back]
      · intro x inside
        exact next x (List.mem_cons_of_mem _ inside)
      · intro x inside
        exact prev x (List.mem_cons_of_mem _ inside)

section Reading

variable {l : Links Node} {head : Node} {nodes : List Node}

theorem chain_forward {a : Node} {rest : List Node} (chain : (a :: rest).IsChain (Adjacent l)) :
    List.iterate l.next a (rest.length + 1) = a :: rest := by
  induction rest generalizing a with
  | nil => rfl
  | cons b rest ih =>
    obtain ⟨⟨forth, _⟩, chain⟩ := List.isChain_cons_cons.mp chain
    rw [List.length_cons, List.iterate, forth, ih chain]

theorem Closed.forward (closed : Closed l head nodes) :
    List.iterate l.next head (nodes.length + 2) = head :: (nodes ++ [head]) := by
  have walked := chain_forward closed.chain
  rwa [List.length_append, List.length_singleton] at walked

theorem Closed.flip (closed : Closed l head nodes) : Closed ⟨l.prev, l.next⟩ head nodes.reverse := by
  constructor
  · have back := List.isChain_reverse.mpr (closed.chain.imp fun a b adjacent => And.symm adjacent)
    rwa [List.reverse_cons, List.reverse_append, List.reverse_singleton, List.append_assoc] at back
  · have distinct := List.nodup_cons.mp closed.distinct
    exact List.nodup_cons.mpr ⟨by simpa using distinct.1, List.nodup_reverse.mpr distinct.2⟩

theorem Closed.backward (closed : Closed l head nodes) :
    List.iterate l.prev head (nodes.length + 2) = head :: (nodes.reverse ++ [head]) := by
  have walked := closed.flip.forward
  rwa [List.length_reverse] at walked

theorem Closed.next_mem (closed : Closed l head nodes) {x : Node} (inside : x ∈ head :: nodes) :
    l.next x ∈ head :: nodes := by
  obtain ⟨before, after, split⟩ := List.append_of_mem inside
  have path : head :: (nodes ++ [head]) = before ++ x :: (after ++ [head]) := by
    rw [← List.cons_append, split, List.append_assoc, List.cons_append]
  obtain ⟨n, rest, follows⟩ : ∃ n rest, after ++ [head] = n :: rest := List.exists_cons_of_ne_nil (by simp)
  have chain := closed.chain
  rw [path, follows, List.isChain_append_cons_cons] at chain
  rw [chain.2.1.1]
  have member : n ∈ after ++ [head] := follows ▸ List.mem_cons_self
  rcases List.mem_append.mp member with later | last
  · rw [split]
    exact List.mem_append_right _ (List.mem_cons_of_mem _ later)
  · rw [List.mem_singleton.mp last]
    exact List.mem_cons_self

theorem Closed.prev_mem (closed : Closed l head nodes) {x : Node} (inside : x ∈ head :: nodes) :
    l.prev x ∈ head :: nodes := by
  have back := @Closed.next_mem _ _ _ _ closed.flip x (by simpa using inside)
  simpa using back

theorem Closed.reaches (closed : Closed l head nodes) (steps : Nat) : l.next^[steps] head ∈ head :: nodes := by
  induction steps with
  | zero => exact List.mem_cons_self
  | succ steps ih =>
    rw [Function.iterate_succ_apply']
    exact closed.next_mem ih

theorem Closed.next_head (closed : Closed l head nodes) : l.next head = (nodes ++ [head]).head (by simp) := by
  cases nodes with
  | nil => exact (List.isChain_cons_cons.mp closed.chain).1.1
  | cons x rest => exact (List.isChain_cons_cons.mp closed.chain).1.1

theorem Closed.empty_iff (closed : Closed l head nodes) : l.next head = head ↔ nodes = [] := by
  rw [closed.next_head]
  cases nodes with
  | nil => exact iff_of_true rfl rfl
  | cons x rest =>
    have distinct := closed.distinct
    apply iff_of_false
    · intro same
      change x = head at same
      exact (List.nodup_cons.mp distinct).1 (same ▸ List.mem_cons_self)
    · exact List.cons_ne_nil x rest

theorem Closed.frame {l' : Links Node} (closed : Closed l head nodes)
    (same : ∀ x ∈ head :: nodes, l'.next x = l.next x ∧ l'.prev x = l.prev x) : Closed l' head nodes := by
  refine ⟨chain_frame closed.chain ?_ ?_, closed.distinct⟩
  · intro x inside
    rw [← List.cons_append, List.dropLast_concat] at inside
    exact (same x inside).1
  · intro x inside
    apply And.right
    apply same
    rcases List.mem_append.mp inside with node | last
    · exact List.mem_cons_of_mem _ node
    · rw [List.mem_singleton.mp last]
      exact List.mem_cons_self

theorem Closed.starts (closed : Closed l head nodes) : (head :: (nodes ++ [head])).dropLast.Nodup := by
  rw [← List.cons_append, List.dropLast_concat]
  exact closed.distinct

theorem Closed.ends (closed : Closed l head nodes) : (head :: (nodes ++ [head])).tail.Nodup := by
  have distinct := List.nodup_cons.mp closed.distinct
  apply List.nodup_append.mpr
  refine ⟨distinct.2, List.nodup_singleton head, ?_⟩
  rintro x inside y last rfl
  exact distinct.1 (List.mem_singleton.mp last ▸ inside)

theorem path_parts {before middle after : List Node} {p n : Node} (starts : (before ++ p :: (middle ++ n :: after)).dropLast.Nodup)
    (ends : (before ++ p :: (middle ++ n :: after)).tail.Nodup) :
    (∀ y ∈ before, y ≠ p) ∧ (∀ y ∈ (before ++ [p]).tail, y ≠ n) ∧ (∀ y ∈ (n :: after).dropLast, y ≠ p) ∧
      ∀ y ∈ after, y ≠ n := by
  have first : (before ++ p :: (middle ++ n :: after)).dropLast = before ++ p :: (middle ++ (n :: after).dropLast) := by
    rw [List.dropLast_append_of_ne_nil (by simp), List.dropLast_cons_of_ne_nil (by simp),
      List.dropLast_append_of_ne_nil (by simp)]
  have last : (before ++ p :: (middle ++ n :: after)).tail = (before ++ [p]).tail ++ (middle ++ n :: after) := by
    rw [List.append_cons, List.tail_append_of_ne_nil (by simp)]
  rw [first] at starts
  rw [last] at ends
  have left := List.nodup_append.mp starts
  have right := List.nodup_append.mp ends
  have fromP := List.nodup_cons.mp left.2.1
  have fromN := List.nodup_cons.mp (List.nodup_append.mp right.2.1).2.1
  refine ⟨?_, ?_, ?_, ?_⟩
  · intro y inside
    exact left.2.2 y inside p List.mem_cons_self
  · intro y inside
    exact right.2.2 y inside n (List.mem_append_right _ List.mem_cons_self)
  · rintro y inside rfl
    exact fromP.1 (List.mem_append_right _ inside)
  · rintro y inside rfl
    exact fromN.1 inside

/-- Two rings over one memory. -/
structure Beside (l : Links Node) (head : Node) (nodes : List Node) (head' : Node) (nodes' : List Node) : Prop where
  left : Closed l head nodes
  right : Closed l head' nodes'
  apart : (head :: nodes).Disjoint (head' :: nodes')

theorem Beside.symm {head' : Node} {nodes' : List Node} (beside : Beside l head nodes head' nodes') : Beside l head' nodes' head nodes :=
  ⟨beside.right, beside.left, fun _ right left => beside.apart left right⟩

theorem Beside.outside {head' x : Node} {nodes' : List Node} (beside : Beside l head nodes head' nodes') (inside : x ∈ head :: nodes) : x ∉ head' :: nodes' :=
  fun other => beside.apart inside other

end Reading

variable [DecidableEq Node]

def Links.setNext (l : Links Node) (x y : Node) : Links Node := { l with next := Function.update l.next x y }

def Links.setPrev (l : Links Node) (x y : Node) : Links Node := { l with prev := Function.update l.prev x y }

/-- Put `new` between two nodes, in this order of stores. -/
def link (l : Links Node) (new prev next : Node) : Links Node :=
  (((l.setPrev next new).setNext new next).setPrev new prev).setNext prev new

/-- Make two nodes neighbours. -/
def unlink (l : Links Node) (prev next : Node) : Links Node := (l.setPrev next prev).setNext prev next

section Stores

variable {l : Links Node} {new p n x : Node}

@[simp] theorem setNext_next (l : Links Node) (x y : Node) : (l.setNext x y).next = Function.update l.next x y := rfl

@[simp] theorem setNext_prev (l : Links Node) (x y : Node) : (l.setNext x y).prev = l.prev := rfl

@[simp] theorem setPrev_prev (l : Links Node) (x y : Node) : (l.setPrev x y).prev = Function.update l.prev x y := rfl

@[simp] theorem setPrev_next (l : Links Node) (x y : Node) : (l.setPrev x y).next = l.next := rfl

theorem link_next (notNew : x ≠ new) (notPrev : x ≠ p) : (link l new p n).next x = l.next x := by
  simp [link, notNew, notPrev]

theorem link_prev (notNew : x ≠ new) (notNext : x ≠ n) : (link l new p n).prev x = l.prev x := by
  simp [link, notNew, notNext]

theorem link_before : Adjacent (link l new p n) p new := by
  simp [Adjacent, link]

theorem link_after (apart : p ≠ new) (apart' : n ≠ new) : Adjacent (link l new p n) new n := by
  simp [Adjacent, link, apart.symm, apart']

theorem unlink_next (notPrev : x ≠ p) : (unlink l p n).next x = l.next x := by
  simp [unlink, notPrev]

theorem unlink_prev (notNext : x ≠ n) : (unlink l p n).prev x = l.prev x := by
  simp [unlink, notNext]

theorem unlink_joins : Adjacent (unlink l p n) p n := by
  simp [Adjacent, unlink]

end Stores

section Paths

variable {l : Links Node} {before after : List Node} {p n new x : Node}

theorem chain_link (chain : (before ++ p :: n :: after).IsChain (Adjacent l))
    (starts : (before ++ p :: n :: after).dropLast.Nodup) (ends : (before ++ p :: n :: after).tail.Nodup)
    (fresh : new ∉ before ++ p :: n :: after) :
    (before ++ p :: new :: n :: after).IsChain (Adjacent (link l new p n)) := by
  obtain ⟨left, _, right⟩ := List.isChain_append_cons_cons.mp chain
  obtain ⟨beforeP, beforeN, afterP, afterN⟩ := @path_parts _ before [] after p n starts ends
  have unused : ∀ y ∈ before ++ p :: n :: after, y ≠ new := fun y inside same => fresh (same ▸ inside)
  apply List.isChain_append_cons_cons.mpr
  refine ⟨chain_frame left ?_ ?_, link_before,
    List.isChain_cons_cons.mpr ⟨link_after (unused p (by simp)) (unused n (by simp)), chain_frame right ?_ ?_⟩⟩
  · intro y inside
    rw [List.dropLast_concat] at inside
    exact link_next (unused y (by simp [inside])) (beforeP y inside)
  · intro y inside
    have member : y ∈ before ++ [p] := List.mem_of_mem_tail inside
    exact link_prev (unused y (by rw [List.append_cons]; exact List.mem_append_left _ member)) (beforeN y inside)
  · intro y inside
    have member : y ∈ n :: after := List.dropLast_subset _ inside
    exact link_next (unused y (by simp only [List.mem_append, List.mem_cons] at member ⊢; tauto)) (afterP y inside)
  · intro y inside
    exact link_prev (unused y (by simp only [List.mem_append, List.mem_cons]; tauto)) (afterN y inside)

theorem chain_unlink (chain : (before ++ p :: x :: n :: after).IsChain (Adjacent l))
    (starts : (before ++ p :: x :: n :: after).dropLast.Nodup) (ends : (before ++ p :: x :: n :: after).tail.Nodup) :
    (before ++ p :: n :: after).IsChain (Adjacent (unlink l p n)) := by
  obtain ⟨left, _, right⟩ := List.isChain_append_cons_cons.mp chain
  obtain ⟨_, right⟩ := List.isChain_cons_cons.mp right
  obtain ⟨beforeP, beforeN, afterP, afterN⟩ := @path_parts _ before [x] after p n starts ends
  apply List.isChain_append_cons_cons.mpr
  refine ⟨chain_frame left ?_ ?_, unlink_joins, chain_frame right ?_ ?_⟩
  · intro y inside
    rw [List.dropLast_concat] at inside
    exact unlink_next (beforeP y inside)
  · intro y inside
    exact unlink_prev (beforeN y inside)
  · intro y inside
    exact unlink_next (afterP y inside)
  · intro y inside
    exact unlink_prev (afterN y inside)

end Paths

section Rules

variable {l : Links Node} {head : Node} {nodes : List Node} {new : Node}

theorem Closed.addFront (closed : Closed l head nodes) (fresh : new ∉ head :: nodes) :
    Closed (link l new head (l.next head)) head (new :: nodes) := by
  obtain ⟨n, rest, follows⟩ : ∃ n rest, nodes ++ [head] = n :: rest := List.exists_cons_of_ne_nil (by simp)
  have chain := closed.chain
  have starts := closed.starts
  have ends := closed.ends
  have outside : new ∉ head :: (nodes ++ [head]) := by
    simp only [List.mem_cons, List.mem_append] at fresh ⊢
    tauto
  rw [follows] at chain starts ends outside
  have first : l.next head = n := (List.isChain_cons_cons.mp chain).1.1
  constructor
  · rw [first, List.cons_append, follows]
    exact @chain_link _ _ l [] rest head n new chain starts ends outside
  · have distinct := List.nodup_cons.mp closed.distinct
    simp only [List.mem_cons, not_or] at fresh
    simp only [List.nodup_cons, List.mem_cons, not_or]
    exact ⟨⟨fun same => fresh.1 same.symm, distinct.1⟩, fresh.2, distinct.2⟩

theorem Closed.addTail (closed : Closed l head nodes) (fresh : new ∉ head :: nodes) :
    Closed (link l new (l.prev head) head) head (nodes ++ [new]) := by
  obtain ⟨before, p, leads⟩ : ∃ before p, head :: nodes = before ++ [p] :=
    ⟨_, _, (List.dropLast_append_getLast (List.cons_ne_nil head nodes)).symm⟩
  have path : head :: (nodes ++ [head]) = before ++ p :: head :: [] := by
    rw [← List.cons_append, leads, List.append_assoc]
    rfl
  have longer : head :: (nodes ++ [new] ++ [head]) = before ++ p :: new :: head :: [] := by
    rw [List.append_assoc, ← List.cons_append, leads, List.append_assoc]
    rfl
  have chain := closed.chain
  have starts := closed.starts
  have ends := closed.ends
  have outside : new ∉ head :: (nodes ++ [head]) := by
    simp only [List.mem_cons, List.mem_append] at fresh ⊢
    tauto
  rw [path] at chain starts ends outside
  have last : l.prev head = p := (List.isChain_append_cons_cons.mp chain).2.1.2
  constructor
  · rw [last, longer]
    exact chain_link chain starts ends outside
  · have distinct := List.nodup_cons.mp closed.distinct
    simp only [List.mem_cons, not_or] at fresh
    simp only [List.nodup_cons, List.mem_append, List.mem_singleton, not_or]
    refine ⟨⟨distinct.1, fun same => fresh.1 same.symm⟩, ?_⟩
    apply List.nodup_append.mpr
    refine ⟨distinct.2, List.nodup_singleton new, ?_⟩
    rintro x inside y single rfl
    exact fresh.2 (List.mem_singleton.mp single ▸ inside)

/-- A node of a ring is taken out between its own neighbours. -/
theorem Closed.remove (closed : Closed l head nodes) {x : Node} (inside : x ∈ nodes) :
    Closed (unlink l (l.prev x) (l.next x)) head (nodes.erase x) := by
  obtain ⟨xs, ys, early, rfl, erased⟩ := List.exists_erase_eq inside
  obtain ⟨before, p, leads⟩ : ∃ before p, head :: xs = before ++ [p] :=
    ⟨_, _, (List.dropLast_append_getLast (List.cons_ne_nil head xs)).symm⟩
  obtain ⟨n, after, follows⟩ : ∃ n after, ys ++ [head] = n :: after := List.exists_cons_of_ne_nil (by simp)
  have path : head :: (xs ++ x :: ys ++ [head]) = before ++ p :: x :: n :: after := by
    rw [List.append_assoc, List.cons_append, follows, ← List.cons_append, leads, List.append_assoc]
    rfl
  have shorter : head :: (xs ++ ys ++ [head]) = before ++ p :: n :: after := by
    rw [List.append_assoc, follows, ← List.cons_append, leads, List.append_assoc]
    rfl
  have chain := closed.chain
  have starts := closed.starts
  have ends := closed.ends
  rw [path] at chain starts ends
  obtain ⟨_, left, right⟩ := List.isChain_append_cons_cons.mp chain
  have neighbour : l.next x = n := (List.isChain_cons_cons.mp right).1.1
  rw [erased]
  constructor
  · rw [left.2, neighbour, shorter]
    exact chain_unlink chain starts ends
  · have kept := closed.distinct.erase x
    have apart : head ≠ x := by
      rintro rfl
      exact (List.nodup_cons.mp closed.distinct).1 inside
    rw [List.erase_cons_tail (by simpa using apart), erased] at kept
    exact kept

end Rules

section TwoRings

variable {l : Links Node} {head head' new x : Node} {nodes nodes' : List Node}

theorem Closed.link_frame (closed : Closed l head nodes) {p n : Node} (new : x ∉ head :: nodes) (before : p ∉ head :: nodes)
    (after : n ∉ head :: nodes) : Closed (link l x p n) head nodes := by
  apply closed.frame
  intro y inside
  have ne : ∀ z, z ∉ head :: nodes → y ≠ z := fun z outside same => outside (same ▸ inside)
  exact ⟨link_next (ne x new) (ne p before), link_prev (ne x new) (ne n after)⟩

theorem Closed.unlink_frame (closed : Closed l head nodes) {p n : Node} (before : p ∉ head :: nodes)
    (after : n ∉ head :: nodes) : Closed (unlink l p n) head nodes := by
  apply closed.frame
  intro y inside
  have ne : ∀ z, z ∉ head :: nodes → y ≠ z := fun z outside same => outside (same ▸ inside)
  exact ⟨unlink_next (ne p before), unlink_prev (ne n after)⟩

theorem Closed.erase_fresh (closed : Closed l head nodes) (inside : x ∈ nodes) : x ∉ head :: nodes.erase x := by
  have distinct := List.nodup_cons.mp closed.distinct
  intro member
  rcases List.mem_cons.mp member with rfl | member
  · exact distinct.1 inside
  · exact (List.Nodup.mem_erase_iff distinct.2).mp member |>.1 rfl

theorem Beside.addFront (beside : Beside l head nodes head' nodes') (fresh : new ∉ head :: nodes)
    (fresh' : new ∉ head' :: nodes') :
    Beside (link l new head (l.next head)) head (new :: nodes) head' nodes' := by
  have atHead : head ∈ head :: nodes := List.mem_cons_self
  refine ⟨beside.left.addFront fresh, ?_, ?_⟩
  · exact beside.right.link_frame fresh' (beside.outside atHead) (beside.outside (beside.left.next_mem atHead))
  · intro y left right
    rcases List.mem_cons.mp left with rfl | left
    · exact beside.apart atHead right
    · rcases List.mem_cons.mp left with rfl | left
      · exact fresh' right
      · exact beside.apart (List.mem_cons_of_mem _ left) right

theorem Beside.addTail (beside : Beside l head nodes head' nodes') (fresh : new ∉ head :: nodes)
    (fresh' : new ∉ head' :: nodes') :
    Beside (link l new (l.prev head) head) head (nodes ++ [new]) head' nodes' := by
  have atHead : head ∈ head :: nodes := List.mem_cons_self
  refine ⟨beside.left.addTail fresh, ?_, ?_⟩
  · exact beside.right.link_frame fresh' (beside.outside (beside.left.prev_mem atHead)) (beside.outside atHead)
  · intro y left right
    rcases List.mem_append.mp (List.cons_append ▸ left : y ∈ head :: nodes ++ [new]) with left | last
    · exact beside.apart left right
    · exact fresh' (List.mem_singleton.mp last ▸ right)

theorem Beside.remove (beside : Beside l head nodes head' nodes') (inside : x ∈ nodes) :
    Beside (unlink l (l.prev x) (l.next x)) head (nodes.erase x) head' nodes' := by
  have member : x ∈ head :: nodes := List.mem_cons_of_mem _ inside
  refine ⟨beside.left.remove inside, ?_, ?_⟩
  · exact beside.right.unlink_frame (beside.outside (beside.left.prev_mem member))
      (beside.outside (beside.left.next_mem member))
  · intro y left right
    rcases List.mem_cons.mp left with rfl | left
    · exact beside.apart List.mem_cons_self right
    · exact beside.apart (List.mem_cons_of_mem _ (List.mem_of_mem_erase left)) right

/-- Out of the left ring, to the front of the right one. -/
theorem Beside.move (beside : Beside l head nodes head' nodes') (inside : x ∈ nodes) :
    Beside (link (unlink l (l.prev x) (l.next x)) x head' ((unlink l (l.prev x) (l.next x)).next head')) head
      (nodes.erase x) head' (x :: nodes') := by
  have away := beside.outside (List.mem_cons_of_mem _ inside)
  exact ((beside.remove inside).symm.addFront away (beside.left.erase_fresh inside)).symm

theorem Beside.poison (beside : Beside l head nodes head' nodes') (left : x ∉ head :: nodes) (right : x ∉ head' :: nodes')
    (y z : Node) : Beside ((l.setNext x y).setPrev x z) head nodes head' nodes' := by
  have frame : ∀ w, w ≠ x → ((l.setNext x y).setPrev x z).next w = l.next w ∧
      ((l.setNext x y).setPrev x z).prev w = l.prev w := by
    intro w other
    simp [other]
  refine ⟨beside.left.frame ?_, beside.right.frame ?_, beside.apart⟩
  · intro w inside
    exact frame w fun same => left (same ▸ inside)
  · intro w inside
    exact frame w fun same => right (same ▸ inside)

end TwoRings

end Ring
