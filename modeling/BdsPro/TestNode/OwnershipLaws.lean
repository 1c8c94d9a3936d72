import BdsPro.TestNode.EngineLaws
import BdsPro.TestNode.Ownership

namespace BdsPro.TestNode

open BdsPro.Library BdsPro.Network

def Node.Built (h : Heap) : Node → Prop
  | .last p => p < h.cells.length ∧ h.fields p = []
  | .before p successor =>
    p < h.cells.length ∧ h.fields p = [successor.pipeline] ∧ successor.Built h

namespace Node

variable {n : Node} {h k : Heap}

theorem pipeline_mem : n.pipeline ∈ n.pipelines := by
  cases n with
  | last p => exact List.mem_singleton_self p
  | before p successor => exact List.mem_cons_self

theorem Built.fields (hn : n.Built h) : h.fields n.pipeline = n.fields := by
  cases n with
  | last p => exact hn.2
  | before p successor => exact hn.2.1

theorem Built.successor (hn : n.Built h) (hm : m ∈ n.successor) : m.Built h := by
  cases n with
  | last p => contradiction
  | before p successor => exact Option.some.inj hm ▸ hn.2.2

theorem Built.mono (hn : n.Built h) (length : h.cells.length ≤ k.cells.length)
    (fields : ∀ i < h.cells.length, k.fields i = h.fields i) : n.Built k := by
  induction n with
  | last p => exact ⟨hn.1.trans_le length, (fields p hn.1).trans hn.2⟩
  | before p successor ih =>
    exact ⟨hn.1.trans_le length, (fields p hn.1).trans hn.2.1, ih hn.2.2⟩

theorem Built.of_successor (pipeline : n.pipeline < h.cells.length)
    (fields : h.fields n.pipeline = n.fields) (successor : ∀ m ∈ n.successor, m.Built h) :
    n.Built h := by
  cases n with
  | last p => exact ⟨pipeline, fields⟩
  | before p m => exact ⟨pipeline, fields, successor m rfl⟩

theorem Built.alloc (hn : n.Built h) : n.Built (h.alloc fs) := by
  refine hn.mono (Heap.length_alloc ▸ Nat.le_succ _) fun i hi => ?_
  rw [Heap.fields_alloc, if_neg hi.ne]

theorem Built.release (hn : n.Built h) : n.Built (h.release i) :=
  hn.mono Heap.length_adjust.ge fun _ _ => Heap.fields_adjust

theorem Built.owns_iff (hn : n.Built h) :
    Relation.ReflTransGen h.Owns n.pipeline p ↔ p ∈ n.pipelines := by
  induction n with
  | last q =>
    have hnone (j : Nat) : ¬h.Owns q j := by
      rw [Heap.Owns, hn.2]
      exact List.not_mem_nil
    rw [pipeline, Relation.ReflTransGen.cases_head_iff, pipelines, List.mem_singleton]
    simp [hnone, eq_comm]
  | before q successor ih =>
    have hone (j : Nat) : h.Owns q j ↔ j = successor.pipeline := by
      rw [Heap.Owns, hn.2.1]
      exact List.mem_singleton
    rw [pipeline, Relation.ReflTransGen.cases_head_iff, pipelines, List.mem_cons, ← ih hn.2.2]
    simp only [hone, exists_eq_left, eq_comm]

end Node

namespace Ownership

variable {s t : Ownership}

structure Consistent (s : Ownership) : Prop where
  emitFns : ∀ (i : Nat) n, s.emitFns[i]? = some (some n) →
    ∃ id, s.engine.emitFns[i]? = some (id, n)
  length : s.emitFns.length = s.engine.emitFns.length
  fresh : ∀ id query, s.engine.queries.lookup id = some query → id < s.engine.idCounter

def Owned (s : Ownership) (n : Node) : Prop := ∃ m ∈ s.held, n = m ∨ n ∈ m.successor

inductive Step (s t : Ownership) : Prop
  | moved (held : t.held = s.held) (heap : t.heap = s.heap) (stopping : t.stopping = s.stopping)
    (calls : t.calls = s.calls)
  | made (n : Node) (rest : Multiset Node) (source : s.held = n.successor.toList + rest)
    (held : t.held = n ::ₘ rest) (pipeline : n.pipeline = s.heap.cells.length)
    (heap : t.heap = s.heap.alloc n.fields) (stopping : t.stopping = s.stopping)
    (calls : t.calls = s.calls)
  | cloned (ns : List Node) (source : ∀ n ∈ ns, s.Owned n) (held : t.held = ns + s.held)
    (heap : t.heap = s.heap.cloneAll (ns.map Node.pipeline))
    (stopping : t.stopping = s.stopping) (calls : t.calls = s.calls)
  | executed (n : Node) (source : n ∈ s.held) (held : t.held = s.held) (heap : t.heap = s.heap)
    (stopping : t.stopping = s.stopping) (calls : t.calls = s.calls ++ [.execute n.pipeline])
  | released (n : Node) (shared : s.heap.strong n.pipeline ≠ 1) (held : s.held = n ::ₘ t.held)
    (heap : t.heap = s.heap.release n.pipeline) (stopping : t.stopping = s.stopping)
    (calls : t.calls = s.calls)
  | dropped (n : Node) (rest : Multiset Node) (last : s.heap.strong n.pipeline = 1)
    (source : s.held = n ::ₘ rest) (held : t.held = n.successor.toList + rest)
    (heap : t.heap = s.heap.release n.pipeline) (stopping : t.stopping = n ::ₘ s.stopping)
    (calls : t.calls = s.calls ++ [.stop n.pipeline])
  | stopped (n : Node) (source : s.stopping = n ::ₘ t.stopping) (held : t.held = s.held)
    (heap : t.heap = s.heap) (calls : t.calls = s.calls ++ [.stopped n.pipeline])

theorem successors_cons (n : Node) (m : Multiset Node) :
    (n ::ₘ m).filterMap Node.successor = n.successor.toList + m.filterMap Node.successor := by
  cases hn : n.successor with
  | none => rw [Multiset.filterMap_cons_none n m hn, Option.toList, Multiset.coe_nil, zero_add]
  | some k =>
    rw [Multiset.filterMap_cons_some _ n m hn, Option.toList, Multiset.coe_singleton,
      Multiset.singleton_add]

theorem push_step (task : Task) (hn : s.Owned task.node) : Step s (s.push task) := by
  refine .cloned [task.node] (by simpa) ?_ rfl rfl rfl
  simp only [held, push, QueryEngine.push]
  split <;> simp [← Multiset.singleton_add, ← Multiset.coe_add] <;> abel

theorem leave_step {e : QueryEngine} (hqueue : e.queue = s.engine.queue)
    (hqueries : e.queries = s.engine.queries) (hworker : e.worker.running = []) :
    Step s (s.leave e) := by
  refine .moved ?_ rfl rfl rfl
  simp only [held, leave, hqueue, hqueries, hworker, List.nil_append, List.map_append,
    ← Multiset.coe_add]
  abel

theorem mem_held_of_task {task : Task}
    (h : task ∈ s.engine.worker.running ++ s.engine.queue) : task.node ∈ s.held := by
  simp only [held, Multiset.mem_add, Multiset.mem_coe]
  exact .inl (.inl (.inr (List.mem_map_of_mem h)))

theorem owned_of_emitFn {i : Nat} (h : s.emitFns[i]? = some (some n)) : s.Owned n := by
  refine ⟨n, ?_, .inl rfl⟩
  simp only [held, Multiset.mem_add, Multiset.mem_coe]
  exact .inl (.inl (.inl (.inr (List.mem_filterMap.mpr ⟨_, List.mem_of_getElem? h, rfl⟩))))

theorem owned_of_handle (h : n ∈ s.handles) : s.Owned n := by
  refine ⟨n, ?_, .inl rfl⟩
  simp only [held, Multiset.mem_add]
  exact .inl (.inl (.inl (.inl (.inl h))))

theorem emit_eq_some {i : Nat} (hs : s.emit i buffer = some t) :
    ∃ n task, s.emitFns[i]? = some (some n) ∧ s.engine.sourceTask i buffer = some task ∧
      t = s.push task := by
  unfold emit at hs
  split at hs
  next n hn =>
    obtain ⟨task, htask, rfl⟩ := Option.map_eq_some_iff.mp hs
    exact ⟨n, task, hn, htask, rfl⟩
  next => contradiction

theorem contextEmit_eq_some (hs : s.contextEmit data = some t) :
    ∃ task, s.engine.worker = .executing task ∧
      t = (s.engine.contextTask data).elim s s.push := by
  unfold contextEmit at hs
  split at hs
  next task hworker => exact ⟨task, hworker, (Option.some.inj hs).symm⟩
  next => contradiction

theorem endSource_eq_some {i : Nat} (hs : s.endSource i = some t) :
    ∃ n, s.emitFns[i]? = some (some n) ∧
      t = { s with emitFns := s.emitFns.set i none, pending := n ::ₘ s.pending } := by
  unfold endSource at hs
  split at hs
  next n hn => exact ⟨n, hn, (Option.some.inj hs).symm⟩
  next => contradiction

theorem newNode_step {successor : Option Node} (hs : s.newNode successor = some t) :
    Step s t := by
  obtain ⟨hle, hs⟩ := Option.ite_none_right_eq_some.mp hs
  obtain ⟨rest, hrest⟩ := Multiset.le_iff_exists_add.mp hle
  obtain rfl := Option.some.inj hs
  refine .made (successor.elim (.last s.heap.cells.length) (.before s.heap.cells.length))
    ({ s with handles := rest }.held) ?_ ?_ ?_ rfl rfl rfl
  · cases successor <;> simp only [held, hrest, Option.elim, Node.successor] <;> abel
  · rw [hrest, add_tsub_cancel_left]
    simp only [held, ← Multiset.singleton_add]
    abel
  · cases successor <;> rfl

theorem cloneNode_step (hs : s.cloneNode n = some t) : Step s t := by
  obtain ⟨hn, hs⟩ := Option.ite_none_right_eq_some.mp hs
  obtain rfl := Option.some.inj hs
  refine .cloned [n] (by simpa using owned_of_handle hn) ?_ rfl rfl rfl
  simp only [held, ← Multiset.singleton_add, Multiset.coe_singleton]
  abel

theorem dropNode_step (hs : s.dropNode n = some t) : Step s t := by
  obtain ⟨hn, hs⟩ := Option.ite_none_right_eq_some.mp hs
  obtain ⟨rest, hrest⟩ := Multiset.exists_cons_of_mem hn
  rw [hrest, Multiset.erase_cons_head] at hs
  obtain rfl := Option.some.inj hs
  refine .moved ?_ rfl rfl rfl
  simp only [held, hrest, ← Multiset.singleton_add]
  abel

theorem startQuery_step {query : List Node} (h : s.Consistent)
    (hs : s.startQuery query = some t) : Step s t := by
  obtain ⟨hle, hs⟩ := Option.ite_none_right_eq_some.mp hs
  obtain ⟨rest, hrest⟩ := Multiset.le_iff_exists_add.mp hle
  obtain rfl := Option.some.inj hs
  have hfresh : s.engine.queries.lookup s.engine.idCounter = none := by
    rw [Option.eq_none_iff_forall_ne_some]
    exact fun query hquery => (h.fresh _ query hquery).ne rfl
  have hfns : ((s.emitFns ++ query.map some).filterMap id : Multiset Node) =
      s.emitFns.filterMap id + query := by
    rw [List.filterMap_append, ← Multiset.coe_add]
    simp [List.filterMap_map]
  refine .cloned query (fun n hn => ?_) ?_ rfl rfl rfl
  · exact owned_of_handle (Multiset.mem_of_le hle hn)
  · simp only [held, hfns, QueryEngine.startQuery, Map.values_insert hfresh,
      Multiset.cons_bind, hrest, add_tsub_cancel_left]
    abel

theorem stopQuery_step (id : Nat) : Step s (s.stopQuery id) := by
  refine .moved ?_ rfl rfl rfl
  simp only [held, stopQuery, QueryEngine.stopQuery]
  cases hquery : s.engine.queries.lookup id with
  | none =>
    rw [Map.erase_of_none hquery]
    simp
  | some query =>
    rw [Map.values_erase hquery, Multiset.cons_bind, Option.getD_some]
    abel

theorem endSource_step {i : Nat} (hs : s.endSource i = some t) : Step s t := by
  obtain ⟨n, hn, rfl⟩ := endSource_eq_some hs
  refine .moved ?_ rfl rfl rfl
  simp only [held, Table.filterMap_set_none (f := id) hn rfl rfl, ← Multiset.singleton_add]
  abel

theorem pop_step (hs : s.pop = some t) : Step s t := by
  obtain ⟨e, he, rfl⟩ := Option.map_eq_some_iff.mp hs
  unfold QueryEngine.pop at he
  split at he
  next task rest hworker hqueue =>
    obtain rfl := Option.some.inj he
    refine .executed task.node (mem_held_of_task ?_) ?_ rfl rfl rfl
    · simp [hqueue]
    · simp [held, hworker, hqueue, Worker.running]
  next => contradiction

theorem release_step (hs : s.release n = some t) : Step s t := by
  obtain ⟨hn, hs⟩ := Option.ite_none_right_eq_some.mp hs
  obtain ⟨rest, hrest⟩ := Multiset.exists_cons_of_mem hn
  rw [hrest, Multiset.erase_cons_head] at hs
  split at hs
  next hlast =>
    obtain rfl := Option.some.inj hs
    refine .dropped n { s with pending := rest }.held hlast ?_ ?_ rfl rfl rfl
    · simp only [held, hrest, ← Multiset.singleton_add]
      abel
    · simp only [held, successors_cons]
      abel
  next hshared =>
    obtain rfl := Option.some.inj hs
    refine .released n hshared ?_ rfl rfl rfl
    simp only [held, hrest, ← Multiset.singleton_add]
    abel

theorem stopReturns_step (hs : s.stopReturns n = some t) : Step s t := by
  obtain ⟨hn, hs⟩ := Option.ite_none_right_eq_some.mp hs
  obtain ⟨rest, hrest⟩ := Multiset.exists_cons_of_mem hn
  rw [hrest, Multiset.erase_cons_head] at hs
  obtain rfl := Option.some.inj hs
  refine .stopped n hrest ?_ rfl rfl
  simp only [held, hrest, successors_cons]
  abel

theorem step_sound (h : s.Consistent) (hs : s.step a = some t) : Step s t := by
  cases a with
  | newNode successor => exact newNode_step hs
  | cloneNode n => exact cloneNode_step hs
  | dropNode n => exact dropNode_step hs
  | startQuery query => exact startQuery_step h hs
  | stopQuery id => exact Option.some.inj hs ▸ stopQuery_step id
  | emit i buffer =>
    obtain ⟨n, task, hn, htask, rfl⟩ := emit_eq_some hs
    obtain ⟨⟨id, m⟩, hm, rfl⟩ := Option.map_eq_some_iff.mp htask
    obtain ⟨id', hn'⟩ := h.emitFns i n hn
    obtain ⟨-, rfl⟩ := Prod.mk.inj (Option.some.inj (hm.symm.trans hn'))
    exact push_step _ (owned_of_emitFn hn)
  | endSource i => exact endSource_step hs
  | contextEmit data =>
    obtain ⟨running, hworker, rfl⟩ := contextEmit_eq_some hs
    cases htask : s.engine.contextTask data with
    | none => exact .moved rfl rfl rfl rfl
    | some task =>
      simp only [QueryEngine.contextTask, hworker] at htask
      obtain ⟨m, hm, rfl⟩ := Option.map_eq_some_iff.mp htask
      refine push_step _ ⟨running.node, mem_held_of_task ?_, .inr hm⟩
      simp [hworker, Worker.running]
  | pop => exact pop_step hs
  | finish =>
    obtain ⟨e, he, rfl⟩ := Option.map_eq_some_iff.mp hs
    unfold QueryEngine.finish at he
    split at he
    next => exact Option.some.inj he ▸ leave_step rfl rfl rfl
    next => contradiction
  | abort =>
    obtain ⟨e, he, rfl⟩ := Option.map_eq_some_iff.mp hs
    unfold QueryEngine.abort at he
    split at he
    next => exact Option.some.inj he ▸ leave_step rfl rfl rfl
    next => contradiction
  | release n => exact release_step hs
  | stopReturns n => exact stopReturns_step hs

namespace Consistent

theorem of_eq (h : s.Consistent) (emitFns : t.emitFns = s.emitFns)
    (engine : t.engine.emitFns = s.engine.emitFns ∧ t.engine.queries = s.engine.queries ∧
      t.engine.idCounter = s.engine.idCounter) : t.Consistent where
  emitFns := emitFns ▸ engine.1 ▸ h.emitFns
  length := emitFns ▸ engine.1 ▸ h.length
  fresh := engine.2.1 ▸ engine.2.2 ▸ h.fresh

theorem startQuery (h : s.Consistent) {query : List Node}
    (hs : s.startQuery query = some t) : t.Consistent := by
  obtain ⟨-, hs⟩ := Option.ite_none_right_eq_some.mp hs
  obtain rfl := Option.some.inj hs
  refine ⟨fun i n hn => ?_, ?_, fun id other hother => ?_⟩
  · simp only [QueryEngine.startQuery]
    rw [List.getElem?_append] at hn ⊢
    rw [← h.length]
    split at hn
    next hi =>
      rw [if_pos hi]
      exact h.emitFns i n hn
    next hi =>
      rw [if_neg hi]
      rw [List.getElem?_map, Option.map_eq_some_iff] at hn
      obtain ⟨m, hm, hmn⟩ := hn
      obtain rfl := Option.some.inj hmn
      exact ⟨_, by rw [List.getElem?_map, hm]; rfl⟩
  · simp [QueryEngine.startQuery, h.length]
  · simp only [QueryEngine.startQuery, Map.lookup_insert] at hother ⊢
    split at hother
    next hid => exact hid ▸ Nat.lt_succ_self _
    next => exact (h.fresh id other hother).trans (Nat.lt_succ_self _)

theorem stopQuery (h : s.Consistent) (id : Nat) : (s.stopQuery id).Consistent :=
  ⟨h.emitFns, h.length, fun _ _ hquery => h.fresh _ _ (Map.lookup_of_erase hquery).2⟩

theorem endSource (h : s.Consistent) {i : Nat} (hs : s.endSource i = some t) :
    t.Consistent := by
  obtain ⟨n, hn, rfl⟩ := endSource_eq_some hs
  refine ⟨fun j m hm => ?_, List.length_set.trans h.length, h.fresh⟩
  obtain ⟨-, hnone⟩ | ⟨-, hm⟩ := Table.set_cases hm
  · contradiction
  · exact h.emitFns j m hm

theorem push (h : s.Consistent) (task : Task) : (s.push task).Consistent :=
  h.of_eq rfl ⟨rfl, rfl, rfl⟩

theorem step (h : s.Consistent) (hs : s.step a = some t) : t.Consistent := by
  cases a with
  | newNode | cloneNode | dropNode | stopReturns =>
    obtain ⟨-, hs⟩ := Option.ite_none_right_eq_some.mp hs
    exact Option.some.inj hs ▸ h.of_eq rfl ⟨rfl, rfl, rfl⟩
  | startQuery query => exact h.startQuery hs
  | stopQuery id => exact Option.some.inj hs ▸ h.stopQuery id
  | emit i buffer =>
    obtain ⟨n, task, -, -, rfl⟩ := emit_eq_some hs
    exact h.push task
  | endSource i => exact h.endSource hs
  | contextEmit data =>
    obtain ⟨running, -, rfl⟩ := contextEmit_eq_some hs
    cases s.engine.contextTask data with
    | none => exact h
    | some task => exact h.push task
  | pop | finish | abort =>
    obtain ⟨e, he, rfl⟩ := Option.map_eq_some_iff.mp hs
    simp only [QueryEngine.pop, QueryEngine.finish, QueryEngine.abort] at he
    split at he
    next => exact Option.some.inj he ▸ h.of_eq rfl ⟨rfl, rfl, rfl⟩
    next => contradiction
  | release n =>
    obtain ⟨-, hs⟩ := Option.ite_none_right_eq_some.mp hs
    split at hs
    next => exact Option.some.inj hs ▸ h.of_eq rfl ⟨rfl, rfl, rfl⟩
    next => exact Option.some.inj hs ▸ h.of_eq rfl ⟨rfl, rfl, rfl⟩

end Consistent

structure Accounted (s : Ownership) : Prop where
  counted : Heap.Counted (s.held.map Node.pipeline) s.heap
  built : ∀ n ∈ s.held + s.stopping, n.Built s.heap

namespace Accounted

theorem pos (h : s.Accounted) (hn : n ∈ s.held) : 0 < s.heap.strong n.pipeline :=
  h.counted.pos_of_root (Multiset.mem_map_of_mem _ hn)

theorem pos_of_owned (h : s.Accounted) (hn : s.Owned n) : 0 < s.heap.strong n.pipeline := by
  obtain ⟨m, hm, rfl | hsuccessor⟩ := hn
  · exact h.pos hm
  · refine h.counted.pos_of_owned (h.pos hm) ?_
    rw [(h.built m (Multiset.mem_add.mpr (.inl hm))).fields, Node.fields, hsuccessor]
    exact List.mem_singleton_self _

theorem built_of_owned (h : s.Accounted) (hn : s.Owned n) : n.Built s.heap := by
  obtain ⟨m, hm, rfl | hsuccessor⟩ := hn
  · exact h.built n (Multiset.mem_add.mpr (.inl hm))
  · exact (h.built m (Multiset.mem_add.mpr (.inl hm))).successor hsuccessor

theorem step (h : s.Accounted) (hs : Step s t) : t.Accounted := by
  obtain ⟨counted, built⟩ := h
  cases hs with
  | moved held heap stopping | executed n source held heap stopping =>
    exact ⟨held ▸ heap ▸ counted, held ▸ stopping ▸ heap ▸ built⟩
  | made n rest source held pipeline heap stopping =>
    rw [source, Multiset.map_add] at counted
    rw [source] at built
    refine ⟨?_, fun m hm => ?_⟩
    · rw [held, heap, Multiset.map_cons, pipeline]
      exact Heap.Counted.alloc counted
    · rw [held, stopping, Multiset.cons_add, Multiset.mem_cons] at hm
      rw [heap]
      obtain rfl | hm := hm
      · refine .of_successor ?_ ?_ fun k hk => ?_
        · rw [pipeline, Heap.length_alloc]
          exact Nat.lt_succ_self _
        · rw [Heap.fields_alloc, if_pos pipeline]
        · refine (built k ?_).alloc
          rw [add_assoc]
          exact Multiset.mem_add.mpr (.inl (Option.mem_toList.mpr hk))
      · refine (built m ?_).alloc
        rw [add_assoc]
        exact Multiset.mem_add.mpr (.inr hm)
  | cloned ns source held heap stopping =>
    refine ⟨?_, fun m hm => ?_⟩
    · rw [held, heap, Multiset.map_add]
      refine counted.cloneAll fun i hi => ?_
      obtain ⟨n, hn, rfl⟩ := List.mem_map.mp hi
      exact pos_of_owned ⟨counted, built⟩ (source n hn)
    · rw [held, stopping, add_assoc] at hm
      rw [heap]
      refine Node.Built.mono ?_ Heap.length_cloneAll.ge fun _ _ => Heap.fields_cloneAll
      obtain hm | hm := Multiset.mem_add.mp hm
      · exact built_of_owned ⟨counted, built⟩ (source m hm)
      · exact built m hm
  | released n shared held heap stopping =>
    rw [held, Multiset.map_cons] at counted
    have hrelease := counted.release
    rw [Heap.freed, if_neg shared, Multiset.coe_nil, zero_add] at hrelease
    refine ⟨heap ▸ hrelease, fun m hm => heap ▸ (built m ?_).release⟩
    rw [held, Multiset.cons_add, ← stopping]
    exact Multiset.mem_cons_of_mem hm
  | dropped n rest last source held heap stopping =>
    have hn := built n (by simp [source])
    rw [source, Multiset.map_cons] at counted
    have hrelease := counted.release
    rw [Heap.freed, if_pos last, hn.fields] at hrelease
    refine ⟨?_, fun m hm => heap ▸ Node.Built.release ?_⟩
    · rw [held, heap, Multiset.map_add]
      exact hrelease
    · rw [source] at built
      rw [held, stopping, add_assoc, Multiset.mem_add, Multiset.add_cons, ← Multiset.cons_add] at hm
      obtain hm | hm := hm
      · exact hn.successor (Option.mem_toList.mp hm)
      · exact built m hm
  | stopped n source held heap =>
    refine ⟨held ▸ heap ▸ counted, fun m hm => heap ▸ built m ?_⟩
    rw [source, Multiset.add_cons, ← held]
    exact Multiset.mem_cons_of_mem hm

end Accounted

structure Recorded (s : Ownership) : Prop where
  stops : ∀ p, s.calls.count (.stop p) = if s.heap.Gone p then 1 else 0
  returns : ∀ p, s.calls.count (.stopped p) + (s.stopping.map Node.pipeline).count p =
    s.calls.count (.stop p)

theorem Recorded.step (h : s.Recorded) (ha : s.Accounted) (hs : Step s t) : t.Recorded := by
  obtain ⟨stops, returns⟩ := h
  cases hs with
  | moved held heap stopping calls => exact ⟨calls ▸ heap ▸ stops, calls ▸ stopping ▸ returns⟩
  | made n rest source held pipeline heap stopping calls =>
    refine ⟨fun p => ?_, calls ▸ stopping ▸ returns⟩
    simp only [calls, heap, Heap.gone_alloc, stops p]
  | cloned ns source held heap stopping calls =>
    have hpos : ∀ i ∈ ns.map Node.pipeline, 0 < s.heap.strong i := by
      intro i hi
      obtain ⟨n, hn, rfl⟩ := List.mem_map.mp hi
      exact ha.pos_of_owned (source n hn)
    refine ⟨fun p => ?_, calls ▸ stopping ▸ returns⟩
    simp only [calls, heap, Heap.gone_cloneAll hpos, stops p]
  | executed n source held heap stopping calls =>
    refine ⟨fun p => ?_, fun p => ?_⟩
    · simpa [calls, heap] using stops p
    · simpa [calls, stopping] using returns p
  | released n shared held heap stopping calls =>
    have hpos := ha.pos (held ▸ Multiset.mem_cons_self n _)
    refine ⟨fun p => ?_, calls ▸ stopping ▸ returns⟩
    simp only [calls, heap, Heap.gone_release hpos, shared, and_false, or_false, stops p]
  | dropped n rest last source held heap stopping calls =>
    have hpos := ha.pos (source ▸ Multiset.mem_cons_self n _)
    have hlive : ¬s.heap.Gone n.pipeline := fun hgone => hpos.ne' hgone.2
    refine ⟨fun p => ?_, fun p => ?_⟩
    · rw [calls, heap, List.count_append, stops p]
      simp only [Heap.gone_release hpos, last, and_true]
      by_cases hp : p = n.pipeline
      · simp [hp, hlive]
      · simp [hp, Ne.symm hp]
    · have hreturns := returns p
      rw [calls, stopping, List.count_append, List.count_append, Multiset.map_cons,
        Multiset.count_cons, ← hreturns]
      by_cases hp : p = n.pipeline
      · simp [hp]
        omega
      · simp [hp, Ne.symm hp]
  | stopped n source held heap calls =>
    refine ⟨fun p => ?_, fun p => ?_⟩
    · simpa [calls, heap] using stops p
    · have hreturns := returns p
      rw [source, Multiset.map_cons, Multiset.count_cons] at hreturns
      rw [calls, List.count_append, List.count_append, ← hreturns]
      by_cases hp : p = n.pipeline
      · simp [hp]
        omega
      · simp [hp, Ne.symm hp]

/-- What has been called before a pipeline is executed or stopped. -/
def Permitted (h : Heap) (before : List Call) : Call → Prop
  | .execute p => .stop p ∉ before
  | .stop p => .stop p ∉ before ∧ ∀ q, h.Owns q p → .stopped q ∈ before
  | .stopped p => .stop p ∈ before ∧ .stopped p ∉ before

def Orderly (s : Ownership) : Prop :=
  ∀ before c, before ++ [c] <+: s.calls → Permitted s.heap before c

theorem Recorded.not_stop (h : s.Recorded) (hp : ¬s.heap.Gone p) : .stop p ∉ s.calls := by
  rw [← List.count_eq_zero, h.stops, if_neg hp]

theorem Recorded.stop_iff (h : s.Recorded) : .stop p ∈ s.calls ↔ s.heap.Gone p := by
  rw [← List.count_pos_iff, h.stops]
  split <;> simp [*]

theorem Permitted.mono {h k : Heap} (hp : Permitted h before c)
    (heap : ∀ q p, c = .stop p → k.Owns q p → h.Owns q p) : Permitted k before c := by
  cases c with
  | execute | stopped => exact hp
  | stop p => exact ⟨hp.1, fun q hq => hp.2 q (heap q p rfl hq)⟩

theorem Orderly.still (h : s.Orderly)
    (heap : ∀ q p, .stop p ∈ s.calls → t.heap.Owns q p → s.heap.Owns q p)
    (calls : t.calls = s.calls) : t.Orderly := by
  intro before c hc
  rw [calls] at hc
  refine (h before c hc).mono fun q p hp => heap q p ?_
  exact hp ▸ hc.subset (List.mem_append_right _ (List.mem_singleton_self c))

theorem Orderly.concat (h : s.Orderly) (heap : ∀ q p, t.heap.Owns q p → s.heap.Owns q p)
    (calls : t.calls = s.calls ++ [c]) (hc : Permitted t.heap s.calls c) : t.Orderly := by
  intro before d hd
  rw [calls, List.prefix_concat_iff] at hd
  obtain hd | hd := hd
  · obtain ⟨rfl, hdc⟩ := List.append_inj' hd rfl
    obtain rfl := List.singleton_inj.mp hdc
    exact hc
  · exact (h before d hd).mono fun q p _ => heap q p

theorem mem_held_of_stopping (hn : n ∈ s.stopping) (hm : m ∈ n.successor) : m ∈ s.held := by
  simp only [held, Multiset.mem_add]
  exact .inr ((Multiset.mem_filterMap _ _).mpr ⟨n, hn, hm⟩)

theorem stopped_of_owns (h : s.Recorded) (hs : s.Accounted) (ht : t.Accounted)
    (source : n ∈ s.held) (last : s.heap.strong n.pipeline = 1)
    (heap : t.heap = s.heap.release n.pipeline) (stopping : t.stopping = n ::ₘ s.stopping)
    (howns : t.heap.Owns q n.pipeline) : .stopped q ∈ s.calls := by
  have hpos := hs.pos source
  have hzero : ¬0 < t.heap.strong n.pipeline := by
    rw [heap, Heap.release, Heap.strong_adjust (Heap.lt_of_pos hpos), if_pos rfl, last]
    exact Nat.lt_irrefl 0
  have hgone : s.heap.Gone q := by
    have hgone := ht.counted.gone_of_owns hzero howns
    rw [heap, Heap.gone_release hpos] at hgone
    exact hgone.resolve_right fun hlast => (ht.counted.down q _ howns).ne' hlast.1
  have hreturns := h.returns q
  rw [h.stops, if_pos hgone] at hreturns
  by_contra hstopped
  rw [List.count_eq_zero.mpr hstopped, Nat.zero_add] at hreturns
  obtain ⟨m, hm, rfl⟩ := Multiset.mem_map.mp
    (Multiset.count_pos.mp (hreturns ▸ Nat.one_pos : 0 < (s.stopping.map Node.pipeline).count q))
  have hm' : m ∈ t.stopping := stopping ▸ Multiset.mem_cons_of_mem hm
  rw [Heap.Owns, (ht.built m (Multiset.mem_add.mpr (.inr hm'))).fields, Node.fields,
    List.mem_map] at howns
  obtain ⟨k, hk, hpipeline⟩ := howns
  exact hzero (hpipeline ▸ ht.pos (mem_held_of_stopping hm' (Option.mem_toList.mp hk)))

theorem Orderly.step (h : s.Orderly) (hr : s.Recorded) (ha : s.Accounted) (hs : Step s t) :
    t.Orderly := by
  have ht := ha.step hs
  cases hs with
  | moved held heap stopping calls => exact h.still (fun _ _ _ => heap ▸ id) calls
  | made n rest source held pipeline heap stopping calls =>
    refine h.still (fun q p hp howns => ?_) calls
    rw [heap, Heap.Owns, Heap.fields_alloc] at howns
    split at howns
    next =>
      obtain ⟨m, hm, rfl⟩ := List.mem_map.mp howns
      have hmem : m ∈ s.held := source ▸ Multiset.mem_add.mpr (.inl hm)
      exact absurd (hr.stop_iff.mp hp).2 (ha.pos hmem).ne'
    next => exact howns
  | cloned ns source held heap stopping calls =>
    exact h.still (fun q p _ howns => Heap.owns_cloneAll.mp (heap ▸ howns)) calls
  | released n shared held heap stopping calls =>
    exact h.still (fun q p _ howns => Heap.owns_release.mp (heap ▸ howns)) calls
  | executed n source held heap stopping calls =>
    refine h.concat (fun _ _ => heap ▸ id) calls (hr.not_stop fun hgone => ?_)
    exact (ha.pos source).ne' hgone.2
  | dropped n rest last source held heap stopping calls =>
    have hmem : n ∈ s.held := source ▸ Multiset.mem_cons_self n rest
    refine h.concat (fun q p howns => Heap.owns_release.mp (heap ▸ howns)) calls
      ⟨?_, fun q howns => ?_⟩
    · exact hr.not_stop fun hgone => (ha.pos hmem).ne' hgone.2
    · exact stopped_of_owns hr ha ht hmem last heap stopping howns
  | stopped n source held heap calls =>
    refine h.concat (fun _ _ => heap ▸ id) calls ?_
    have hcount : 0 < (s.stopping.map Node.pipeline).count n.pipeline := by
      rw [source, Multiset.map_cons, Multiset.count_cons_self]
      exact Nat.succ_pos _
    have hreturns := hr.returns n.pipeline
    have hstops := hr.stops n.pipeline
    refine ⟨List.count_pos_iff.mp (by omega), List.count_eq_zero.mp ?_⟩
    split at hstops <;> omega

structure Sound (s : Ownership) : Prop where
  consistent : s.Consistent
  accounted : s.Accounted
  recorded : s.Recorded
  orderly : s.Orderly

theorem sound_of_reachable (h : machine.Reachable s) : s.Sound := by
  refine h.invariant (I := Sound) ⟨⟨nofun, rfl, nofun⟩, ⟨.empty, nofun⟩, ?_, ?_⟩ ?_
  · exact ⟨fun p => (if_neg fun hgone => absurd hgone.1 (Nat.not_lt_zero p)).symm, fun _ => rfl⟩
  · exact fun before c hc => absurd (List.prefix_nil.mp hc) (by simp)
  · intro s a t _ ih _ hs
    have hstep := step_sound ih.consistent hs
    exact ⟨ih.consistent.step hs, ih.accounted.step hstep, ih.recorded.step ih.accounted hstep,
      ih.orderly.step ih.recorded ih.accounted hstep⟩

theorem Accounted.pos_iff (h : s.Accounted) :
    0 < s.heap.strong p ↔ ∃ n ∈ s.held, p ∈ n.pipelines := by
  rw [h.counted.pos_iff_reached, Heap.Reached]
  simp only [Multiset.mem_map, exists_exists_and_eq_and]
  refine exists_congr fun n => and_congr_right fun hn => ?_
  exact (h.built n (Multiset.mem_add.mpr (.inl hn))).owns_iff

theorem Sound.stop_iff (h : s.Sound) :
    .stop p ∈ s.calls ↔ p < s.heap.cells.length ∧ ∀ n ∈ s.held, p ∉ n.pipelines := by
  have hzero : s.heap.strong p = 0 ↔ ∀ n ∈ s.held, p ∉ n.pipelines := by
    rw [← Nat.le_zero, ← Nat.not_lt, h.accounted.pos_iff]
    simp
  rw [h.recorded.stop_iff, Heap.Gone, hzero]

/-- The pipeline of a node is stopped, once, exactly when no handle, query, source, task or
thread holds a node that leads to it any more. -/
theorem stopped_iff_unreachable (h : machine.Reachable s) (p : Nat) :
    s.calls.count (.stop p) ≤ 1 ∧ (.stop p ∈ s.calls ↔
      p < s.heap.cells.length ∧ ∀ n ∈ s.held, p ∉ n.pipelines) := by
  have hs := sound_of_reachable h
  refine ⟨?_, hs.stop_iff⟩
  rw [hs.recorded.stops]
  split <;> decide

def exampleQuery : List Action :=
  [.newNode none, .newNode (some (.last 0)), .startQuery [.before 1 (.last 0)],
    .emit 0 (exampleBuffer 1 []), .stopQuery 0, .endSource 0, .release (.before 1 (.last 0)),
    .release (.before 1 (.last 0)), .pop, .contextEmit (exampleBuffer 2 []), .finish,
    .release (.before 1 (.last 0)), .pop, .stopReturns (.before 1 (.last 0)),
    .release (.last 0), .finish, .release (.last 0)]

theorem stopped_iff_unreachable_queued :
    ∃ s, machine.Reachable s ∧ s.calls = [.execute 1, .stop 1] ∧ ∀ n ∈ s.held, 1 ∉ n.pipelines := by
  obtain ⟨s, hs, hcalls⟩ := Machine.exists_reaches_of_replay (M := machine)
    (C := fun _ _ => True) (P := fun s => s.calls = [.execute 1, .stop 1])
    (exampleQuery.take 12) (by decide)
  exact ⟨s, hs, hcalls, ((stopped_iff_unreachable hs 1).2.mp (by simp [hcalls])).2⟩

theorem calls_permitted (h : machine.Reachable s) (hc : before ++ [c] <+: s.calls) :
    Permitted s.heap before c := (sound_of_reachable h).orderly before c hc

theorem calls_permitted_two_nodes :
    ∃ s, machine.Reachable s ∧ s.heap.Owns 1 0 ∧
      Permitted s.heap [.execute 1, .stop 1, .execute 0, .stopped 1] (.stop 0) := by
  obtain ⟨s, hs, hcalls, howns⟩ := Machine.exists_reaches_of_replay (M := machine)
    (C := fun _ _ => True)
    (P := fun s => s.calls = [.execute 1, .stop 1, .execute 0, .stopped 1] ++ [.stop 0] ∧
      s.heap.fields 1 = [0])
    exampleQuery (by decide)
  refine ⟨s, hs, ?_, calls_permitted hs ⟨[], (List.append_nil _).trans hcalls.symm⟩⟩
  rw [Heap.Owns, howns]
  exact List.mem_singleton_self 0

def Action.engine : Action → Option QueryEngine.Action
  | .startQuery query => some (.startQuery query)
  | .stopQuery id => some (.stopQuery id)
  | .emit i buffer => some (.emit i buffer)
  | .contextEmit data => some (.contextEmit data)
  | .pop => some .pop
  | .finish => some .finish
  | .abort => some .abort
  | .newNode _ | .cloneNode _ | .dropNode _ | .endSource _ | .release _ | .stopReturns _ => none

theorem engine_of_step (hs : s.step a = some t) :
    QueryEngine.machine.follow s.engine a.engine = some t.engine := by
  cases a with
  | newNode | cloneNode | dropNode | stopReturns | startQuery =>
    obtain ⟨-, hs⟩ := Option.ite_none_right_eq_some.mp hs
    exact Option.some.inj hs ▸ rfl
  | stopQuery id => exact Option.some.inj hs ▸ rfl
  | emit i buffer =>
    obtain ⟨n, task, -, htask, rfl⟩ := emit_eq_some hs
    simp [Action.engine, QueryEngine.machine, QueryEngine.step, QueryEngine.emit, htask, push]
  | endSource i =>
    obtain ⟨n, -, rfl⟩ := endSource_eq_some hs
    rfl
  | contextEmit data =>
    obtain ⟨running, hworker, rfl⟩ := contextEmit_eq_some hs
    simp only [Action.engine, QueryEngine.machine, Machine.follow_some, QueryEngine.step,
      QueryEngine.contextEmit, hworker]
    cases s.engine.contextTask data <;> rfl
  | pop | finish | abort =>
    obtain ⟨e, he, rfl⟩ := Option.map_eq_some_iff.mp hs
    exact he
  | release n =>
    obtain ⟨-, hs⟩ := Option.ite_none_right_eq_some.mp hs
    split at hs
    next => exact Option.some.inj hs ▸ rfl
    next => exact Option.some.inj hs ▸ rfl

def enginePart : Machine.Part QueryEngine.machine machine where
  state := engine
  action _ := Action.engine
  init := rfl
  step := engine_of_step

def Roomy (s : Ownership) (a : Action) : Prop := enginePart.Permits QueryEngine.Roomy s a

instance (s : Ownership) (a : Action) : Decidable (s.Roomy a) :=
  inferInstanceAs (Decidable (∀ b ∈ a.engine, s.engine.Roomy b))

theorem executed_before_stop (h : machine.Reaches Roomy s) (hp : .stop p ∈ s.calls) :
    s.engine.executed.filter (·.node.pipeline = p) =
      s.engine.emitted.filter (·.node.pipeline = p) := by
  have hstopped := ((sound_of_reachable h.reachable).stop_iff.mp hp).2
  have hrest : (s.engine.worker.running ++ s.engine.queue).filter (·.node.pipeline = p) = [] := by
    refine List.filter_eq_nil_iff.mpr fun task htask hpipeline => ?_
    refine hstopped task.node (mem_held_of_task htask) ?_
    exact of_decide_eq_true hpipeline ▸ Node.pipeline_mem
  have hlossless : s.engine.Lossless := QueryEngine.lossless (enginePart.reaches h)
  have hfilter := hlossless.filter (·.node.pipeline = p)
  rw [Fifo, hrest, List.append_nil] at hfilter
  exact hfilter.symm

theorem executed_before_stop_two_nodes :
    ∃ s, machine.Reaches Roomy s ∧ s.engine.emitted.length = 2 ∧
      s.engine.executed.filter (·.node.pipeline = 0) =
        s.engine.emitted.filter (·.node.pipeline = 0) := by
  obtain ⟨s, hs, hlength, hstop⟩ := Machine.exists_reaches_of_replay (M := machine)
    (C := Roomy) (P := fun s => s.engine.emitted.length = 2 ∧ .stop 0 ∈ s.calls)
    exampleQuery (by decide)
  exact ⟨s, hs, hlength, executed_before_stop hs hstop⟩

end Ownership

end BdsPro.TestNode
