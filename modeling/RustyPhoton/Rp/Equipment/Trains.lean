import RustyPhoton.Lib.Assoc
import RustyPhoton.Lib.Precedence

/-!
# The order of devices across trains

`order_cycle` of `equipment/trains.rs`: the consecutive pairs of all clean trains make up one
relation, and Kahn's elimination takes out the devices that nothing comes before any more. The
devices it leaves are those a cycle leads to, which is more than the devices on a cycle.
-/

namespace RustyPhoton.Rp.Equipment

open Lib Relation Assoc

structure TrainDevice where
  id : String
  deriving DecidableEq

structure Train where
  devices : List TrainDevice
  deriving DecidableEq

def Train.ids (train : Train) : List String := train.devices.map (·.id)

/-- The order in which the successors of a device come out of its `HashSet`. -/
structure Iteration where
  order : String → List String → List String
  perm : ∀ node next, (order node next).Perm next

/-! ## The relation -/

/-- `nodes`, `edges` and `in_degree`. -/
structure OrderGraph where
  nodes : List String
  edges : List (String × List String)
  inDegree : List (String × Nat)

namespace OrderGraph

def empty : OrderGraph where
  nodes := []
  edges := []
  inDegree := []

/-- The devices known to come right after one. -/
def next (graph : OrderGraph) (node : String) : List String := (graph.edges.lookup node).getD []

def addNode (graph : OrderGraph) (id : String) : OrderGraph :=
  if contains id graph.inDegree then graph
  else { graph with nodes := graph.nodes ++ [id], inDegree := insert id 0 graph.inDegree }

def addPair (graph : OrderGraph) (pair : String × String) : OrderGraph :=
  if pair.2 ∈ graph.next pair.1 then graph
  else
    { graph with
      edges := insert pair.1 (graph.next pair.1 ++ [pair.2]) graph.edges
      inDegree := insert pair.2 ((graph.inDegree.lookup pair.2).getD 0 + 1) graph.inDegree }

/-- `windows(2)`. -/
def windows (ids : List String) : List (String × String) := ids.zip ids.tail

def addTrain (graph : OrderGraph) (train : Train) : OrderGraph :=
  (windows train.ids).foldl addPair (train.ids.foldl addNode graph)

end OrderGraph

def orderGraph (trains : List Train) : OrderGraph := trains.foldl OrderGraph.addTrain .empty

/-! ## The elimination -/

/-- `queue` is a stack, its last element first. -/
structure Elimination where
  inDegree : List (String × Nat)
  queue : List String
  removed : Nat

namespace Elimination

/-- One successor of a device that was taken out. -/
def relax (e : Elimination) (successor : String) : Elimination :=
  match e.inDegree.lookup successor with
  | none => e
  | some d =>
      { e with
        inDegree := insert successor (d - 1) e.inDegree
        queue := if d - 1 = 0 then successor :: e.queue else e.queue }

def pop (iteration : Iteration) (graph : OrderGraph) (e : Elimination) (node : String)
    (rest : List String) : Elimination :=
  (iteration.order node (graph.next node)).foldl relax
    { e with queue := rest, removed := e.removed + 1 }

/-- The loop, this many rounds at most. -/
def run (iteration : Iteration) (graph : OrderGraph) : Nat → Elimination → Elimination
  | 0, e => e
  | rounds + 1, e =>
      match e.queue with
      | [] => e
      | node :: rest => run iteration graph rounds (e.pop iteration graph node rest)

/-- The devices that nothing comes before. -/
def start (graph : OrderGraph) : Elimination where
  inDegree := graph.inDegree
  queue := (graph.nodes.filter fun n => graph.inDegree.lookup n = some 0).reverse
  removed := 0

end Elimination

/-- `order_cycle`. No device is queued twice, so a round for each device is enough. -/
def orderCycle (iteration : Iteration) (trains : List Train) : Option (List String) :=
  let graph := orderGraph trains
  let e := (Elimination.start graph).run iteration graph graph.nodes.length
  if e.removed = graph.nodes.length then none
  else some (graph.nodes.filter fun n => (e.inDegree.lookup n).any (0 < ·))

/-! ## What the graph shows -/

namespace OrderGraph

variable {graph : OrderGraph} {ids : List String} {pairs : List (String × String)} {x : String}

/-- `x` comes right after `a`. -/
def Before (graph : OrderGraph) (a x : String) : Prop := x ∈ graph.next a

/-- How many devices besides the given ones come right before `x`. -/
def degree (graph : OrderGraph) (without : List String) (x : String) : Nat :=
  graph.nodes.countP fun a => x ∈ graph.next a ∧ a ∉ without

/-- The graph has these devices and these consecutive pairs, and its in-degrees are right. -/
structure Shows (graph : OrderGraph) (ids : List String) (pairs : List (String × String)) :
    Prop where
  nodup : graph.nodes.Nodup
  mem_nodes : ∀ x, x ∈ graph.nodes ↔ x ∈ ids
  next_nodup : ∀ a, (graph.next a).Nodup
  mem_next : ∀ a x, x ∈ graph.next a ↔ (a, x) ∈ pairs
  lookup : ∀ x, graph.inDegree.lookup x =
    if x ∈ graph.nodes then some (graph.degree [] x) else none
  closed : ∀ pair ∈ pairs, pair.1 ∈ ids ∧ pair.2 ∈ ids

theorem Shows.empty : Shows .empty [] [] where
  nodup := List.nodup_nil
  mem_nodes _ := Iff.rfl
  next_nodup _ := List.nodup_nil
  mem_next a x := by
    show x ∈ [] ↔ (a, x) ∈ []
    rw [List.mem_nil_iff, List.mem_nil_iff]
  lookup _ := rfl
  closed _ h := by cases h

variable {a : String}

/-- A count that one element more passes. -/
theorem countP_eq_add_one {l : List String} {p q : String → Bool} (hl : l.Nodup)
    (ha : a ∈ l) (hp : p a = true) (hq : q a = false) (hpq : ∀ b ∈ l, b ≠ a → p b = q b) :
    l.countP p = l.countP q + 1 := by
  have hperm := List.perm_cons_erase ha
  have hrest : (l.erase a).countP p = (l.erase a).countP q := by
    refine List.countP_congr fun b hb => ?_
    rw [hpq b (List.mem_of_mem_erase hb) (hl.mem_erase_iff.mp hb).1]
  have hnot : ¬ q a = true := by rw [hq]; exact Bool.false_ne_true
  rw [hperm.countP_eq, hperm.countP_eq, List.countP_cons_of_pos hp, List.countP_cons_of_neg hnot,
    hrest]

theorem addNode_next (id a : String) : (graph.addNode id).next a = graph.next a := by
  unfold addNode
  split
  · rfl
  · rfl

theorem Shows.contains_iff (h : graph.Shows ids pairs) :
    contains x graph.inDegree = true ↔ x ∈ graph.nodes := by
  rw [contains, h.lookup]
  split
  · next hx => exact ⟨fun _ => hx, fun _ => rfl⟩
  · next hx => exact ⟨fun hsome => absurd hsome Bool.false_ne_true, fun hmem => absurd hmem hx⟩

theorem Shows.addNode (h : graph.Shows ids pairs) (id : String) :
    (graph.addNode id).Shows (ids ++ [id]) pairs := by
  have hclosed : ∀ pair ∈ pairs, pair.1 ∈ ids ++ [id] ∧ pair.2 ∈ ids ++ [id] := fun pair hpair =>
    ⟨List.mem_append_left _ (h.closed pair hpair).1, List.mem_append_left _ (h.closed pair hpair).2⟩
  by_cases hid : contains id graph.inDegree = true
  · have hmem : id ∈ ids := (h.mem_nodes id).mp (h.contains_iff.mp hid)
    have heq : graph.addNode id = graph := by rw [OrderGraph.addNode, if_pos hid]
    rw [heq]
    refine { h with mem_nodes := fun x => ?_, closed := hclosed }
    rw [h.mem_nodes, List.mem_append, List.mem_singleton]
    exact ⟨.inl, fun hor => hor.elim (fun hx => hx) fun hx => hx ▸ hmem⟩
  · have hnot : id ∉ graph.nodes := fun hmem => hid (h.contains_iff.mpr hmem)
    have heq : graph.addNode id =
        { graph with
          nodes := graph.nodes ++ [id], inDegree := insert id 0 graph.inDegree } := by
      rw [OrderGraph.addNode, if_neg hid]
    -- Nothing comes after the new device yet, so it counts for none.
    have hdegree : ∀ x, (graph.addNode id).degree [] x = graph.degree [] x := by
      intro x
      have hlast : x ∉ graph.next id := fun hx =>
        hnot ((h.mem_nodes id).mpr (h.closed _ ((h.mem_next id x).mp hx)).1)
      rw [heq]
      show (graph.nodes ++ [id]).countP (fun a => x ∈ graph.next a ∧ a ∉ []) = _
      rw [List.countP_append, List.countP_cons_of_neg (by simp [hlast]), List.countP_nil]
      rfl
    have hnodes : ∀ x, x ∈ (graph.addNode id).nodes ↔ x ∈ graph.nodes ∨ x = id := by
      intro x
      rw [heq]
      show x ∈ graph.nodes ++ [id] ↔ _
      rw [List.mem_append, List.mem_singleton]
    refine ⟨?_, ?_, ?_, ?_, ?_, hclosed⟩
    · rw [heq]
      exact List.nodup_append.mpr ⟨h.nodup, List.nodup_singleton id, fun a ha b hb hab =>
        hnot (List.mem_singleton.mp hb ▸ hab ▸ ha)⟩
    · intro x
      rw [hnodes, h.mem_nodes, List.mem_append, List.mem_singleton]
    · intro a
      rw [addNode_next]
      exact h.next_nodup a
    · intro a x
      rw [addNode_next]
      exact h.mem_next a x
    · intro x
      rw [hdegree]
      by_cases hx : x = id
      · have hzero : graph.degree [] x = 0 := by
          refine List.countP_eq_zero.mpr fun a _ ha => ?_
          have hnext := (of_decide_eq_true ha).1
          rw [hx] at hnext
          exact hnot ((h.mem_nodes id).mpr (h.closed _ ((h.mem_next a id).mp hnext)).2)
        rw [if_pos ((hnodes x).mpr (.inr hx)), hzero, heq, hx]
        exact lookup_insert_self id 0 graph.inDegree
      · have hlookup : (graph.addNode id).inDegree.lookup x = graph.inDegree.lookup x := by
          rw [heq]
          exact lookup_insert_of_ne 0 graph.inDegree hx
        rw [hlookup, h.lookup]
        refine if_congr ?_ rfl rfl
        rw [hnodes]
        exact ⟨.inl, fun hor => hor.resolve_right hx⟩

theorem Shows.addPair (h : graph.Shows ids pairs) {pair : String × String} (hfst : pair.1 ∈ ids)
    (hsnd : pair.2 ∈ ids) : (graph.addPair pair).Shows ids (pairs ++ [pair]) := by
  obtain ⟨a, b⟩ := pair
  have hclosed : ∀ p ∈ pairs ++ [(a, b)], p.1 ∈ ids ∧ p.2 ∈ ids := by
    intro p hp
    rcases List.mem_append.mp hp with hp | hp
    · exact h.closed p hp
    · rw [List.mem_singleton.mp hp]
      exact ⟨hfst, hsnd⟩
  by_cases hknown : b ∈ graph.next a
  · have heq : graph.addPair (a, b) = graph := by rw [OrderGraph.addPair, if_pos hknown]
    rw [heq]
    refine { h with mem_next := fun a' x => ?_, closed := hclosed }
    rw [h.mem_next, List.mem_append, List.mem_singleton]
    refine ⟨.inl, fun hor => hor.elim id fun hlast => ?_⟩
    rw [hlast]
    exact (h.mem_next a b).mp hknown
  · have heq : graph.addPair (a, b) =
        { graph with
          edges := insert a (graph.next a ++ [b]) graph.edges
          inDegree :=
            insert b ((graph.inDegree.lookup b).getD 0 + 1) graph.inDegree } := by
      rw [OrderGraph.addPair, if_neg hknown]
    have hnext : ∀ a', (graph.addPair (a, b)).next a' =
        if a' = a then graph.next a ++ [b] else graph.next a' := by
      intro a'
      rw [heq]
      show ((insert a (graph.next a ++ [b]) graph.edges).lookup a').getD [] = _
      split
      · next ha =>
          rw [ha, lookup_insert_self]
          rfl
      · next ha =>
          rw [lookup_insert_of_ne _ _ ha]
          rfl
    have hmem : ∀ a' x, x ∈ (graph.addPair (a, b)).next a' ↔
        x ∈ graph.next a' ∨ a' = a ∧ x = b := by
      intro a' x
      rw [hnext]
      split
      · next ha =>
          rw [List.mem_append, List.mem_singleton, ha]
          exact ⟨fun hor => hor.imp_right fun hx => ⟨rfl, hx⟩, fun hor => hor.imp_right (·.2)⟩
      · next ha => exact ⟨.inl, fun hor => hor.resolve_right fun hab => ha hab.1⟩
    have hnodes : (graph.addPair (a, b)).nodes = graph.nodes := by rw [heq]
    have ha : a ∈ graph.nodes := (h.mem_nodes a).mpr hfst
    have hb : b ∈ graph.nodes := (h.mem_nodes b).mpr hsnd
    refine ⟨by rw [hnodes]; exact h.nodup, fun x => by rw [hnodes]; exact h.mem_nodes x, ?_, ?_, ?_,
      hclosed⟩
    · intro a'
      rw [hnext]
      split
      · refine List.nodup_append.mpr ⟨h.next_nodup a, List.nodup_singleton b, ?_⟩
        intro x hx y hy hxy
        rw [List.mem_singleton.mp hy] at hxy
        exact hknown (hxy ▸ hx)
      · exact h.next_nodup a'
    · intro a' x
      rw [hmem, h.mem_next, List.mem_append, List.mem_singleton, Prod.mk.injEq]
    · intro x
      by_cases hx : x = b
      · have hdegree : (graph.addPair (a, b)).degree [] b = graph.degree [] b + 1 := by
          unfold degree
          rw [hnodes]
          refine countP_eq_add_one h.nodup ha ?_ ?_ ?_
          · exact decide_eq_true ⟨(hmem a b).mpr (.inr ⟨rfl, rfl⟩), List.not_mem_nil⟩
          · exact decide_eq_false fun hand => hknown hand.1
          · intro c _ hca
            refine decide_eq_decide.mpr (and_congr_left fun _ => ?_)
            rw [hmem]
            exact ⟨fun hor => hor.resolve_right fun hab => hca hab.1, .inl⟩
        rw [hx, hdegree, hnodes, if_pos hb, heq]
        show (insert b _ graph.inDegree).lookup b = _
        rw [lookup_insert_self, h.lookup, if_pos hb]
        rfl
      · have hdegree : (graph.addPair (a, b)).degree [] x = graph.degree [] x := by
          unfold degree
          rw [hnodes]
          refine List.countP_congr fun c _ => ?_
          refine iff_of_eq (congrArg (· = true) (decide_eq_decide.mpr (and_congr_left fun _ => ?_)))
          rw [hmem]
          exact ⟨fun hor => hor.resolve_right fun hab => hx hab.2, .inl⟩
        rw [hdegree, hnodes, heq]
        show (insert b _ graph.inDegree).lookup x = _
        rw [lookup_insert_of_ne _ _ hx, h.lookup]

theorem Shows.addNodes (h : graph.Shows ids pairs) (more : List String) :
    (more.foldl OrderGraph.addNode graph).Shows (ids ++ more) pairs := by
  induction more generalizing graph ids with
  | nil =>
    rw [List.append_nil]
    exact h
  | cons id more ih =>
    have hmore := ih (h.addNode id)
    rwa [List.append_assoc, List.singleton_append] at hmore

theorem Shows.addPairs (h : graph.Shows ids pairs) {more : List (String × String)}
    (hmore : ∀ pair ∈ more, pair.1 ∈ ids ∧ pair.2 ∈ ids) :
    (more.foldl OrderGraph.addPair graph).Shows ids (pairs ++ more) := by
  induction more generalizing graph pairs with
  | nil =>
    rw [List.append_nil]
    exact h
  | cons pair more ih =>
    obtain ⟨hfst, hsnd⟩ := hmore pair List.mem_cons_self
    have hrest := ih (h.addPair hfst hsnd) fun p hp => hmore p (List.mem_cons_of_mem _ hp)
    rwa [List.append_assoc, List.singleton_append] at hrest

/-- The pairs of a list are those of elements that stand next to each other. -/
theorem mem_windows {b : String} : (a, b) ∈ windows ids ↔ [a, b] <:+: ids := by
  induction ids with
  | nil =>
    refine ⟨fun h => absurd h List.not_mem_nil, fun h => ?_⟩
    have hlen := h.length_le
    simp at hlen
  | cons c rest ih =>
    cases rest with
    | nil =>
      refine ⟨fun h => absurd h List.not_mem_nil, fun h => ?_⟩
      have hlen := h.length_le
      simp at hlen
    | cons d rest =>
      show (a, b) ∈ (c, d) :: windows (d :: rest) ↔ _
      have hcons : [a, b] <:+: c :: d :: rest ↔ [a, b] <+: c :: d :: rest ∨ [a, b] <:+: d :: rest :=
        List.infix_cons_iff
      rw [List.mem_cons, ih, hcons, List.cons_prefix_cons, List.cons_prefix_cons, Prod.mk.injEq]
      exact or_congr_left ⟨fun h => ⟨h.1, h.2, List.nil_prefix⟩, fun h => ⟨h.1, h.2.1⟩⟩

theorem Shows.addTrain (h : graph.Shows ids pairs) (train : Train) :
    (graph.addTrain train).Shows (ids ++ train.ids) (pairs ++ windows train.ids) := by
  refine (h.addNodes train.ids).addPairs fun pair hpair => ?_
  have hpart := (mem_windows (a := pair.1) (b := pair.2)).mp hpair
  exact ⟨List.mem_append_right _ (hpart.subset List.mem_cons_self),
    List.mem_append_right _ (hpart.subset (List.mem_cons_of_mem _ List.mem_cons_self))⟩

theorem shows_orderGraph (trains : List Train) : (orderGraph trains).Shows
    (trains.flatMap Train.ids) (trains.flatMap fun train => windows train.ids) := by
  have hfold : ∀ {graph : OrderGraph} {ids pairs}, graph.Shows ids pairs →
      (trains.foldl addTrain graph).Shows (ids ++ trains.flatMap Train.ids)
        (pairs ++ trains.flatMap fun train => windows train.ids) := by
    induction trains with
    | nil =>
      intro graph ids pairs h
      simpa using h
    | cons train rest ih =>
      intro graph ids pairs h
      have hrest := ih (h.addTrain train)
      rwa [List.append_assoc, List.append_assoc] at hrest
  exact hfold Shows.empty

/-- In the graph of the trains, a device comes before another where some train has them one after
the other. -/
theorem before_orderGraph {trains : List Train} {b : String} :
    (orderGraph trains).Before a b ↔ Consecutive (trains.map Train.ids) a b := by
  unfold Before
  rw [(shows_orderGraph trains).mem_next, List.mem_flatMap]
  constructor
  · rintro ⟨train, htrain, hpair⟩
    exact ⟨train.ids, List.mem_map_of_mem htrain, mem_windows.mp hpair⟩
  · rintro ⟨l, hl, hpart⟩
    obtain ⟨train, htrain, rfl⟩ := List.mem_map.mp hl
    exact ⟨train, htrain, mem_windows.mpr hpart⟩

end OrderGraph

/-! ## What the elimination leaves -/

section

variable {graph : OrderGraph} {ids : List String} {pairs : List (String × String)}

/-- The devices popped so far are well founded, none of them twice, and the rest of the state is as
they say. -/
structure Elimination.Keeps (graph : OrderGraph) (e : Elimination) (popped : List String) :
    Prop where
  removed : e.removed = popped.length
  nodup : (e.queue ++ popped).Nodup
  ready : ∀ x, x ∈ e.queue ∨ x ∈ popped ↔ e.inDegree.lookup x = some 0
  lookup : ∀ x, e.inDegree.lookup x =
    if x ∈ graph.nodes then some (graph.degree popped x) else none
  acc : ∀ x ∈ popped, Acc graph.Before x

theorem Elimination.Keeps.start (h : graph.Shows ids pairs) :
    (Elimination.start graph).Keeps graph [] where
  removed := rfl
  nodup := by
    rw [List.append_nil]
    exact List.nodup_reverse.mpr (h.nodup.filter _)
  ready x := by
    show x ∈ (graph.nodes.filter fun n => graph.inDegree.lookup n = some 0).reverse ∨ x ∈ [] ↔
      graph.inDegree.lookup x = some 0
    rw [List.mem_reverse, List.mem_filter, decide_eq_true_iff]
    refine ⟨fun hor => (hor.resolve_right List.not_mem_nil).2, fun hzero => .inl ⟨?_, hzero⟩⟩
    have hlookup := h.lookup x
    rw [hzero] at hlookup
    by_contra hnot
    rw [if_neg hnot] at hlookup
    cases hlookup
  lookup := h.lookup
  acc x hx := absurd hx List.not_mem_nil

/-- Within a round, the successors relaxed so far count without the device taken out, the others
still with it. -/
structure Elimination.Relaxing (graph : OrderGraph) (e : Elimination) (node : String)
    (popped done : List String) : Prop where
  removed : e.removed = popped.length + 1
  nodup : (e.queue ++ node :: popped).Nodup
  ready : ∀ x, x ∈ e.queue ∨ x ∈ node :: popped ↔ e.inDegree.lookup x = some 0
  lookup : ∀ x, e.inDegree.lookup x =
    if x ∈ graph.nodes then
      some (graph.degree (if x ∈ done then node :: popped else popped) x)
    else none

variable {node x : String} {popped : List String}

/-- One device less comes before a successor of the device taken out. -/
theorem OrderGraph.degree_successor (h : graph.Shows ids pairs)
    (hnode : node ∉ popped) (hx : x ∈ graph.next node) :
    graph.degree popped x = graph.degree (node :: popped) x + 1 := by
  have hmem : node ∈ graph.nodes :=
    (h.mem_nodes node).mpr (h.closed _ ((h.mem_next node x).mp hx)).1
  refine OrderGraph.countP_eq_add_one h.nodup hmem (decide_eq_true ⟨hx, hnode⟩) ?_ ?_
  · exact decide_eq_false fun hand => hand.2 List.mem_cons_self
  · intro c _ hc
    refine decide_eq_decide.mpr (and_congr_right fun _ => ?_)
    rw [List.mem_cons, not_or]
    exact ⟨fun hcp => ⟨hc, hcp⟩, (·.2)⟩

theorem OrderGraph.degree_other
    (hx : x ∉ graph.next node) : graph.degree popped x = graph.degree (node :: popped) x := by
  refine List.countP_congr fun c _ => ?_
  refine iff_of_eq (congrArg (· = true) (decide_eq_decide.mpr ⟨?_, ?_⟩))
  · rintro ⟨hc, hcp⟩
    refine ⟨hc, fun hmem => ?_⟩
    rcases List.mem_cons.mp hmem with rfl | hmem
    · exact hx hc
    · exact hcp hmem
  · rintro ⟨hc, hcp⟩
    exact ⟨hc, fun hmem => hcp (List.mem_cons_of_mem _ hmem)⟩

variable {e : Elimination}

theorem Elimination.Relaxing.relax (h : graph.Shows ids pairs)
    {done : List String} (hr : e.Relaxing graph node popped done) (hx : x ∈ graph.next node)
    (hdone : x ∉ done) : (e.relax x).Relaxing graph node popped (done ++ [x]) := by
  have hmem : x ∈ graph.nodes := (h.mem_nodes x).mpr (h.closed _ ((h.mem_next node x).mp hx)).2
  have hnode : node ∉ popped := (List.nodup_cons.mp (List.nodup_append.mp hr.nodup).2.1).1
  have hlookup : e.inDegree.lookup x = some (graph.degree (node :: popped) x + 1) := by
    rw [hr.lookup, if_pos hmem, if_neg hdone, OrderGraph.degree_successor h hnode hx]
  have heq : e.relax x =
      { e with
        inDegree := insert x (graph.degree (node :: popped) x) e.inDegree
        queue := if graph.degree (node :: popped) x = 0 then x :: e.queue else e.queue } := by
    unfold Elimination.relax
    rw [hlookup]
    rfl
  -- The successor was not ready before: the device taken out still came before it.
  have hnew : ¬ (x ∈ e.queue ∨ x ∈ node :: popped) := by
    rw [hr.ready, hlookup]
    intro hzero
    cases hzero
  rw [not_or] at hnew
  have hself : (e.relax x).inDegree.lookup x = some (graph.degree (node :: popped) x) := by
    rw [heq]
    exact lookup_insert_self _ _ _
  have hother : ∀ y, y ≠ x → (e.relax x).inDegree.lookup y = e.inDegree.lookup y := by
    intro y hy
    rw [heq]
    exact lookup_insert_of_ne _ _ hy
  have hqueue : ∀ y, y ∈ (e.relax x).queue ↔
      y ∈ e.queue ∨ y = x ∧ graph.degree (node :: popped) x = 0 := by
    intro y
    rw [heq]
    show y ∈ (if graph.degree (node :: popped) x = 0 then x :: e.queue else e.queue) ↔ _
    split
    · next hzero =>
        rw [List.mem_cons]
        exact ⟨fun hor => hor.elim (fun hy => .inr ⟨hy, hzero⟩) .inl,
          fun hor => hor.elim .inr fun hy => .inl hy.1⟩
    · next hzero => exact ⟨.inl, fun hor => hor.resolve_right fun hy => hzero hy.2⟩
  refine ⟨?_, ?_, ?_, ?_⟩
  · rw [heq]
    exact hr.removed
  · rw [heq]
    show ((if graph.degree (node :: popped) x = 0 then x :: e.queue else e.queue) ++
      node :: popped).Nodup
    split
    · refine List.nodup_cons.mpr ⟨fun hmem => ?_, hr.nodup⟩
      exact (List.mem_append.mp hmem).elim hnew.1 hnew.2
    · exact hr.nodup
  · intro y
    rw [hqueue]
    by_cases hy : y = x
    · rw [hy, hself]
      constructor
      · rintro ((hmem | hzero) | hmem)
        · exact absurd hmem hnew.1
        · rw [hzero.2]
        · exact absurd hmem hnew.2
      · intro hzero
        exact .inl (.inr ⟨rfl, Option.some.inj hzero⟩)
    · rw [hother y hy, ← hr.ready]
      exact or_congr_left ⟨fun hor => hor.resolve_right fun hand => hy hand.1, .inl⟩
  · intro y
    by_cases hy : y = x
    · rw [hy, hself, if_pos hmem, if_pos (List.mem_append_right _ (List.mem_singleton_self x))]
    · rw [hother y hy, hr.lookup]
      have hiff : y ∈ done ++ [x] ↔ y ∈ done := by
        rw [List.mem_append, List.mem_singleton]
        exact ⟨fun hor => hor.resolve_right hy, .inl⟩
      rw [if_congr hiff rfl rfl]

/-- A round takes out one device more. -/
theorem Elimination.Keeps.pop (h : graph.Shows ids pairs) (iteration : Iteration)
    {rest : List String} (hk : e.Keeps graph popped)
    (hqueue : e.queue = node :: rest) :
    (e.pop iteration graph node rest).Keeps graph (node :: popped) := by
  have hnodup := hk.nodup
  rw [hqueue] at hnodup
  have hnode : node ∉ rest ++ popped := (List.nodup_cons.mp hnodup).1
  have hready := hk.ready
  rw [hqueue] at hready
  -- What comes before a ready device has been popped, so it is well founded.
  have hacc : Acc graph.Before node := by
    refine Acc.intro node fun a ha => ?_
    have hzero := (hready node).mp (.inl List.mem_cons_self)
    rw [hk.lookup] at hzero
    split at hzero
    · have hcount := List.countP_eq_zero.mp (Option.some.inj hzero) a
        ((h.mem_nodes a).mpr (h.closed _ ((h.mem_next a node).mp ha)).1)
      by_contra hnot
      exact hcount (decide_eq_true ⟨ha, fun hpopped => hnot (hk.acc a hpopped)⟩)
    · cases hzero
  have hstart : Elimination.Relaxing graph { e with queue := rest, removed := e.removed + 1 } node
      popped [] := by
    refine ⟨by rw [hk.removed], ?_, ?_, hk.lookup⟩
    · exact List.nodup_middle.mpr hnodup
    · intro x
      rw [← hready x, List.mem_cons, List.mem_cons]
      exact ⟨fun hor => hor.elim (fun hx => .inl (.inr hx)) fun hx => hx.imp_left .inl,
        fun hor => hor.elim (fun hx => hx.elim (fun hx => .inr (.inl hx)) .inl)
          fun hx => .inr (.inr hx)⟩
  have hperm := iteration.perm node (graph.next node)
  have hfold : ∀ {more done : List String} {e : Elimination}, e.Relaxing graph node popped done →
      (done ++ more).Nodup → (∀ x ∈ more, x ∈ graph.next node) →
      (more.foldl Elimination.relax e).Relaxing graph node popped (done ++ more) := by
    intro more
    induction more with
    | nil =>
      intro done e hr _ _
      rw [List.append_nil]
      exact hr
    | cons x more ih =>
      intro done e hr hdistinct hmore
      have hx : x ∉ done := fun hx =>
        (List.nodup_append.mp hdistinct).2.2 x hx x List.mem_cons_self rfl
      have hrest := ih (hr.relax h (hmore x List.mem_cons_self) hx)
        (by rwa [List.append_assoc, List.singleton_append])
        fun y hy => hmore y (List.mem_cons_of_mem _ hy)
      rwa [List.append_assoc, List.singleton_append] at hrest
  have hdone := hfold hstart (hperm.nodup_iff.mpr (h.next_nodup node)) fun x hx =>
    hperm.mem_iff.mp hx
  rw [List.nil_append] at hdone
  refine ⟨hdone.removed, hdone.nodup, hdone.ready, ?_, ?_⟩
  · intro x
    have hlookup := hdone.lookup x
    by_cases hx : x ∈ graph.next node
    · rwa [if_pos (hperm.mem_iff.mpr hx)] at hlookup
    · rw [if_neg fun hmem => hx (hperm.mem_iff.mp hmem), OrderGraph.degree_other hx] at hlookup
      exact hlookup
  · intro x hx
    rcases List.mem_cons.mp hx with rfl | hx
    · exact hacc
    · exact hk.acc x hx

/-- A round for each device empties the queue. -/
theorem Elimination.Keeps.run (h : graph.Shows ids pairs) (iteration : Iteration) {rounds : Nat}
    (hk : e.Keeps graph popped)
    (hrounds : graph.nodes.length ≤ popped.length + rounds) :
    ∃ popped', (e.run iteration graph rounds).Keeps graph popped' ∧
      (e.run iteration graph rounds).queue = [] := by
  induction rounds generalizing e popped with
  | zero =>
    refine ⟨popped, hk, ?_⟩
    show e.queue = []
    -- All devices are popped, so no other can be ready.
    have hsub : e.queue ++ popped ⊆ graph.nodes := by
      intro x hx
      have hzero := (hk.ready x).mp (List.mem_append.mp hx)
      rw [hk.lookup] at hzero
      by_contra hnot
      rw [if_neg hnot] at hzero
      cases hzero
    have hlen := (List.subperm_of_subset hk.nodup hsub).length_le
    rw [List.length_append] at hlen
    exact List.length_eq_zero_iff.mp (by omega)
  | succ rounds ih =>
    cases hqueue : e.queue with
    | nil =>
      have heq : e.run iteration graph (rounds + 1) = e := by
        rw [Elimination.run, hqueue]
      rw [heq]
      exact ⟨popped, hk, hqueue⟩
    | cons node rest =>
      have heq : e.run iteration graph (rounds + 1) =
          (e.pop iteration graph node rest).run iteration graph rounds := by
        rw [Elimination.run, hqueue]
      rw [heq]
      refine ih (hk.pop h iteration hqueue) ?_
      rw [List.length_cons]
      omega

/-- Once the queue is empty, the well-founded devices are those that were popped. -/
theorem Elimination.Keeps.mem_popped_iff (h : graph.Shows ids pairs)
    (hk : e.Keeps graph popped) (hempty : e.queue = [])
    (hx : x ∈ graph.nodes) : x ∈ popped ↔ Acc graph.Before x := by
  refine ⟨hk.acc x, fun hacc => ?_⟩
  induction hacc with
  | intro x _ ih =>
    have hall : graph.degree popped x = 0 := by
      refine List.countP_eq_zero.mpr fun a ha hcount => ?_
      obtain ⟨hbefore, hnot⟩ := of_decide_eq_true hcount
      exact hnot (ih a hbefore ha)
    have hready := (hk.ready x).mpr (by rw [hk.lookup, if_pos hx, hall])
    rw [hempty] at hready
    exact hready.resolve_left List.not_mem_nil

end

/-! ## What is reported -/

section

variable {iteration : Iteration} {trains : List Train}

/-- The check reports the devices a cycle leads to, and nothing where there are none. -/
theorem orderCycle_eq (iteration : Iteration) (trains : List Train) :
    (orderCycle iteration trains = none ∧
      ∀ x, ¬ Downstream (Consecutive (trains.map Train.ids)) x) ∨
    ∃ devices, orderCycle iteration trains = some devices ∧ devices ≠ [] ∧
      ∀ x, x ∈ devices ↔ Downstream (Consecutive (trains.map Train.ids)) x := by
  have hshows := OrderGraph.shows_orderGraph trains
  have hbefore : (orderGraph trains).Before = Consecutive (trains.map Train.ids) := by
    funext a b
    exact propext OrderGraph.before_orderGraph
  have hrounds : ([] : List String).length + (orderGraph trains).nodes.length ≥
      (orderGraph trains).nodes.length := Nat.le_add_left _ _
  obtain ⟨popped, hk, hempty⟩ := (Elimination.Keeps.start hshows).run hshows iteration hrounds
  have hnodes : ∀ {a b}, (orderGraph trains).Before a b → a ∈ (orderGraph trains).nodes :=
    fun {a b} hab => (hshows.mem_nodes a).mpr (hshows.closed _ ((hshows.mem_next a b).mp hab)).1
  have hmem : ∀ {x}, Downstream (orderGraph trains).Before x → x ∈ (orderGraph trains).nodes := by
    rintro x ⟨a, hcycle, hax⟩
    rcases ReflTransGen.cases_tail hax with rfl | ⟨b, _, hbx⟩
    · obtain ⟨b, hab, _⟩ := TransGen.head'_iff.mp hcycle
      exact hnodes hab
    · exact (hshows.mem_nodes x).mpr (hshows.closed _ ((hshows.mem_next b x).mp hbx)).2
  have hpopped : ∀ {x}, x ∈ (orderGraph trains).nodes →
      (x ∈ popped ↔ ¬ Downstream (orderGraph trains).Before x) := fun hx =>
    (hk.mem_popped_iff hshows hempty hx).trans (acc_iff_not_downstream hnodes)
  have hsub : popped ⊆ (orderGraph trains).nodes := by
    intro x hx
    have hzero := (hk.ready x).mp (.inr hx)
    rw [hk.lookup] at hzero
    by_contra hnot
    rw [if_neg hnot] at hzero
    cases hzero
  have hsubperm := List.subperm_of_subset (List.nodup_append.mp hk.nodup).2.1 hsub
  rw [← hbefore]
  by_cases hall : popped.length = (orderGraph trains).nodes.length
  · refine .inl ⟨?_, fun x hx => ?_⟩
    · show (if _ then none else some _) = none
      rw [if_pos (hk.removed.trans hall)]
    · have hperm := hsubperm.perm_of_length_le (Nat.le_of_eq hall.symm)
      exact (hpopped (hmem hx)).mp (hperm.mem_iff.mpr (hmem hx)) hx
  · refine .inr ⟨_, if_neg fun heq => hall (hk.removed.symm.trans heq), ?_, ?_⟩
    · intro hnone
      refine hall (Nat.le_antisymm hsubperm.length_le ?_)
      refine (List.subperm_of_subset hshows.nodup fun x hx => ?_).length_le
      by_contra hnot
      have hx' := List.filter_eq_nil_iff.mp hnone x hx
      rw [hk.lookup, if_pos hx, Option.any_some, decide_eq_true_iff] at hx'
      have hzero : (orderGraph trains).degree popped x = 0 := by omega
      have hready := (hk.ready x).mpr (by rw [hk.lookup, if_pos hx, hzero])
      rw [hempty] at hready
      exact hnot (hready.resolve_left List.not_mem_nil)
    · intro x
      rw [List.mem_filter]
      constructor
      · rintro ⟨hx, hpositive⟩
        by_contra hdown
        have hzero := (hk.ready x).mp (.inr ((hpopped hx).mpr hdown))
        rw [hzero] at hpositive
        cases hpositive
      · intro hdown
        refine ⟨hmem hdown, ?_⟩
        rw [hk.lookup, if_pos (hmem hdown), Option.any_some, decide_eq_true_iff]
        by_contra hpositive
        have hzero : (orderGraph trains).degree popped x = 0 := by omega
        have hready := (hk.ready x).mpr (by rw [hk.lookup, if_pos (hmem hdown), hzero])
        rw [hempty] at hready
        exact (hpopped (hmem hdown)).mp (hready.resolve_left List.not_mem_nil) hdown

/-- There is nothing to report exactly where one order serves all trains. -/
theorem orderCycle_eq_none_iff : orderCycle iteration trains = none ↔
    ∃ order, CommonOrder (trains.map Train.ids) order := by
  rw [exists_commonOrder_iff]
  rcases orderCycle_eq iteration trains with ⟨hnone, hclear⟩ | ⟨devices, hsome, hne, hmem⟩
  · exact ⟨fun _ a hcycle => hclear a hcycle.downstream, fun _ => hnone⟩
  · constructor
    · intro hnone
      rw [hsome] at hnone
      cases hnone
    · intro hclear
      obtain ⟨x, hx⟩ := List.exists_mem_of_ne_nil devices hne
      obtain ⟨a, hcycle, _⟩ := (hmem x).mp hx
      exact absurd hcycle (hclear a)

/-- The check is exact, and names devices on a cycle alone, exactly where no cycle leads to a device
that is not on one. -/
theorem orderCycle_exact_iff (iteration : Iteration) (trains : List Train) :
    ((orderCycle iteration trains = none ↔ ∃ order, CommonOrder (trains.map Train.ids) order) ∧
      ∀ devices, orderCycle iteration trains = some devices →
        ∀ x ∈ devices, OnCycle (Consecutive (trains.map Train.ids)) x) ↔
    ∀ x, Downstream (Consecutive (trains.map Train.ids)) x →
      OnCycle (Consecutive (trains.map Train.ids)) x := by
  rcases orderCycle_eq iteration trains with ⟨hnone, hclear⟩ | ⟨devices, hsome, _, hmem⟩
  · refine ⟨fun _ x hx => absurd hx (hclear x), fun _ => ⟨orderCycle_eq_none_iff, ?_⟩⟩
    intro devices hsome
    rw [hnone] at hsome
    cases hsome
  · constructor
    · rintro ⟨_, hcycles⟩ x hx
      exact hcycles devices hsome x ((hmem x).mpr hx)
    · intro hcycles
      refine ⟨orderCycle_eq_none_iff, fun others hothers x hx => ?_⟩
      rw [hsome] at hothers
      cases hothers
      exact hcycles x ((hmem x).mp hx)

end

/-! ## A camera behind a cycle -/

namespace Evaluation

def inOrder : Iteration where
  order _ next := next
  perm _ next := .refl next

def train (ids : List String) : Train := ⟨ids.map (⟨·⟩)⟩

/-- Two trains that hold two rotators in contradictory order. -/
def contradictory : List Train := [train ["r1", "r2", "cam-a"], train ["r2", "r1", "cam-b"]]

/-- Both cameras are reported, and a camera comes before nothing. -/
theorem camera_not_on_cycle :
    ¬ ∀ iteration trains, (∀ train ∈ trains, train.ids.Nodup) →
      (orderCycle iteration trains = none ↔ ∃ order, CommonOrder (trains.map Train.ids) order) ∧
      ∀ devices, orderCycle iteration trains = some devices →
        ∀ x ∈ devices, OnCycle (Consecutive (trains.map Train.ids)) x := by
  intro h
  have hclean : ∀ train ∈ contradictory, train.ids.Nodup := by
    intro train htrain
    rcases List.mem_pair.mp htrain with rfl | rfl
    · decide
    · decide
  have hreported : orderCycle inOrder contradictory = some ["r1", "r2", "cam-a", "cam-b"] := by
    rfl
  have hcycle := (h inOrder contradictory hclean).2 _ hreported "cam-a" (by decide)
  obtain ⟨b, ⟨l, hl, hpart⟩, _⟩ := TransGen.head'_iff.mp hcycle
  have hwindow := OrderGraph.mem_windows.mpr hpart
  rcases List.mem_pair.mp hl with rfl | rfl
  · simp [OrderGraph.windows, Train.ids, train] at hwindow
  · simp [OrderGraph.windows, Train.ids, train] at hwindow

end Evaluation

end RustyPhoton.Rp.Equipment
