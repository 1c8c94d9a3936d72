import BdsPro.Network.Receiver.ServiceLaws

/-! A data queue is in one place at a time.  The queues in all places that can hold one are
counted with multiplicity; a step moves them, drops them or adds the queue of a new
registration. -/

namespace BdsPro.Network.Receiver

open BdsPro.Library

def Grant.held (g : Grant) : Option Registration :=
  if g.task = .ended then none else some g.registration

def Grant.Awaiting (g : Grant) : Prop := g.task = .spawned ∨ g.task = .parked

/-- The Ok has been sent, and the data stream that it asks for has not been looked up yet. -/
def Grant.Outstanding (g : Grant) : Prop :=
  g.attempt = .answered ∨ g.attempt = .connecting ∧ (g.stream = .backlog ∨ g.stream.Held)

theorem Grant.held_eq {g : Grant} (h : g.task ≠ .ended) : g.held = some g.registration :=
  if_neg h

namespace Service

def running (l : List Grant) : Multiset Registration := l.filterMap Grant.held

def places (s : Service) : Multiset Registration :=
  s.control.map ServiceControl.registration + s.registeredChannels.values

def holders (s : Service) : Multiset Registration := s.places + running s.grants

section

variable {l : List Grant} {g g' : Grant} {i : Nat}

theorem running_concat (l : List Grant) (g : Grant) (h : g.task ≠ .ended) :
    running (l ++ [g]) = g.registration ::ₘ running l := by
  rw [running, Table.filterMap_concat, Grant.held_eq h, ← Multiset.coe_add, add_comm]
  rfl

theorem running_set (entry : l[i]? = some g) (g' : Grant) (held : g'.held = g.held) :
    running (l.set i g') = running l := by
  have h := Table.filterMap_set_add Grant.held entry g'
  rw [held] at h
  exact add_right_cancel h

theorem running_end (entry : l[i]? = some g) (g' : Grant) (task : g.task ≠ .ended)
    (ended : g'.task = .ended) :
    running l = g.registration ::ₘ running (l.set i g') := by
  have h := Table.filterMap_set_add Grant.held entry g'
  rw [Grant.held_eq task, show g'.held = none from if_pos ended] at h
  calc
    running l = running l + 0 := (add_zero _).symm
    _ = running (l.set i g') + {g.registration} := h.symm
    _ = g.registration ::ₘ running (l.set i g') := by rw [add_comm, Multiset.singleton_add]

theorem running_dropSender (l : List Grant) (o : Option Nat) :
    running (dropSender l o) ≤ running l := by
  obtain heq | ⟨j, g, entry, task, heq⟩ := dropSender_eq l o
  · rw [heq]
  · have hend := running_end entry { g with task := .ended } (by simp [task]) rfl
    rw [heq, hend]
    exact Multiset.le_cons_self _ _

end

theorem places_concat (l : List ServiceControl) (m : ServiceControl)
    (registered : Multiset Registration) :
    ↑((l ++ [m]).map ServiceControl.registration) + registered =
      m.registration ::ₘ (↑(l.map ServiceControl.registration) + registered) := by
  rw [List.map_append, List.map_singleton, ← Multiset.coe_add, Multiset.coe_singleton,
    ← Multiset.singleton_add]
  abel

theorem places_grant {s : Service} (entry : s.registeredChannels.lookup c = some r) :
    r ::ₘ (↑(s.control.map ServiceControl.registration) +
      (s.registeredChannels.erase c).values) = s.places := by
  rw [places, Map.values_erase entry, Multiset.add_cons]

theorem places_serve {s : Service} {m : ServiceControl} {rest : List ServiceControl}
    {registered : Map ChannelIdentifier Registration} (head : s.control = m :: rest)
    (h : registered.values ≤ m.registration ::ₘ s.registeredChannels.values) :
    ↑(rest.map ServiceControl.registration) + registered.values ≤ s.places := by
  calc
    _ ≤ ↑(rest.map ServiceControl.registration) +
        m.registration ::ₘ s.registeredChannels.values := add_le_add (le_refl _) h
    _ = s.places := by
      rw [places, head, List.map_cons, ← Multiset.cons_coe, Multiset.add_cons, Multiset.cons_add]

theorem values_registered (s : Service) (c : ChannelIdentifier) (r : Registration) :
    ((s.registeredChannels.retain fun _ r => !s.isCancelled r).insert c r).values ≤
      r ::ₘ s.registeredChannels.values :=
  (Map.values_insert_le _ c r).trans (Multiset.cons_le_cons r (Map.values_retain_le _ _))

theorem Step.holders {s t : Service} (hs : Step s a t) :
    t.holders ≤ s.holders ∧ s.registrations.length ≤ t.registrations.length ∨
    t.holders = s.registrations.length ::ₘ s.holders ∧
      t.registrations.length = s.registrations.length + 1 := by
  cases hs with
  | registerChannel c =>
    refine .inr ⟨?_, by simp⟩
    simp only [Service.holders, places, places_concat, ServiceControl.registration,
      Multiset.cons_add]
  | grant k c r socket entry =>
    refine .inl ⟨le_of_eq ?_, le_refl _⟩
    simp only [Service.holders]
    rw [running_concat _ _ (by simp), ← places_grant entry, Multiset.add_cons, Multiset.cons_add]
    rfl
  | openChannel i g entry task =>
    have hg := getElem?_dropSender (o := s.openedChannels.lookup g.key) entry task
    have hset := running_set hg { g with task := .parked } (by simp [Grant.held, task])
    exact .inl ⟨add_le_add (le_refl _) (hset ▸ running_dropSender _ _), le_refl _⟩
  | answered j g _ entry | unanswered j g _ entry =>
    exact .inl ⟨add_le_add (le_refl _) (le_of_eq (running_set entry _ rfl)), le_refl _⟩
  | connectChannel i g entry | established i g entry | failed i g entry =>
    exact .inl ⟨add_le_add (le_refl _) (le_of_eq (running_set entry _ rfl)), le_refl _⟩
  | acceptStream i g _ entry | identified i g _ entry | refused i g _ entry
  | notRegistered i g _ entry | alreadyClosed i j g _ entry =>
    exact .inl ⟨add_le_add (le_refl _) (le_of_eq (running_set entry _ rfl)), le_refl _⟩
  | delivered i j g h loop entry opened receiver task =>
    have hset := running_set entry { g with stream := .delivered j } rfl
    obtain ⟨h', hh', htask⟩ := Table.exists_set (P := fun h => h.task = .parked)
      (b := { g with stream := .delivered j }) ⟨h, receiver, task⟩ entry fun _ => id
    have hmodify := running_set hh' { h' with task := .handling }
      (by simp [Grant.held, htask])
    rw [← Table.modify_eq_set hh' fun h => { h with task := .handling }, hset] at hmodify
    exact .inl ⟨add_le_add (le_refl _) (le_of_eq hmodify), le_refl _⟩
  | finishOk i g entry task | finishCancelled i g entry task | abort i g entry task =>
    have hend := running_end entry { g with task := .ended } (by simp [task]) rfl
    refine .inl ⟨add_le_add (le_refl _) ?_, le_refl _⟩
    exact hend ▸ Multiset.le_cons_self _ _
  | finishNetwork i g entry task | finishClosed i g entry task =>
    have hset := running_set entry { g with task := .retrying } (by simp [Grant.held, task])
    exact .inl ⟨add_le_add (le_refl _) (le_of_eq hset), by simp⟩
  | retry i g entry task =>
    have hend := running_end entry { g with task := .ended } (by simp [task]) rfl
    refine .inl ⟨le_of_eq ?_, le_refl _⟩
    simp only [Service.holders, places, places_concat, hend, ServiceControl.registration,
      Multiset.cons_add, Multiset.add_cons]
  | registered c r rest head =>
    refine .inl ⟨add_le_add (places_serve head (values_registered s c r)) (le_refl _), ?_⟩
    simp only
    split <;> simp
  | reopened c r rest head =>
    have hvalues := Map.values_insert_le s.registeredChannels c r
    exact .inl ⟨add_le_add (places_serve head hvalues) (le_refl _), le_refl _⟩
  | closeQueue => exact .inl ⟨le_refl _, by simp [Service.closeQueue]⟩
  | closeControl | stop => exact .inl ⟨le_refl _, by simp⟩
  | _ => exact .inl ⟨le_refl _, le_refl _⟩

structure Exclusive (s : Service) : Prop where
  once : s.holders.Nodup
  made : ∀ r ∈ s.holders, r < s.registrations.length

theorem Exclusive.step {s t : Service} (h : s.Exclusive) (hs : Step s a t) : t.Exclusive := by
  obtain ⟨hle, hlength⟩ | ⟨heq, hlength⟩ := hs.holders
  · constructor
    · exact Multiset.nodup_of_le hle h.once
    · intro r hr
      exact Nat.lt_of_lt_of_le (h.made r (Multiset.mem_of_le hle hr)) hlength
  · constructor
    · rw [heq]
      exact Multiset.nodup_cons.mpr ⟨fun hr => (h.made _ hr).false, h.once⟩
    · intro r hr
      rw [heq, Multiset.mem_cons] at hr
      rw [hlength]
      rcases hr with rfl | hr
      · exact Nat.lt_succ_self _
      · exact Nat.lt_succ_of_lt (h.made r hr)

structure Fed (l : List Grant) : Prop where
  receiver : ∀ {i j : Nat} {g : Grant}, l[i]? = some g → g.stream = .delivered j →
    ∃ h, l[j]? = some h ∧ ¬h.Awaiting ∧ h.key = g.key
  once : ∀ {i i' j : Nat} {g g' : Grant}, l[i]? = some g → l[i']? = some g' →
    g.stream = .delivered j → g'.stream = .delivered j → i = i'

theorem Fed.set {l : List Grant} (h : Fed l) (entry : l[i]? = some g) (key : g'.key = g.key)
    (stream : ∀ j, g'.stream = .delivered j → g.stream = .delivered j)
    (task : g'.Awaiting → g.Awaiting) : Fed (l.set i g') := by
  have hold {j k : Nat} {x : Grant} (hx : (l.set i g')[j]? = some x)
      (hstream : x.stream = .delivered k) :
      ∃ y, l[j]? = some y ∧ y.stream = .delivered k ∧ y.key = x.key := by
    rcases Table.set_cases hx with ⟨rfl, rfl⟩ | ⟨-, hx⟩
    · exact ⟨g, entry, stream k hstream, key.symm⟩
    · exact ⟨x, hx, hstream, rfl⟩
  constructor
  · intro j k x hx hstream
    obtain ⟨y, hy, hstream, hkey⟩ := hold hx hstream
    obtain ⟨z, hz, hnot, hzkey⟩ := h.receiver hy hstream
    refine Table.exists_set ⟨z, hz, hnot, hzkey.trans hkey⟩ entry ?_
    exact fun _ ⟨hg, hgkey⟩ => ⟨fun hg' => hg (task hg'), key.trans hgkey⟩
  · intro j j' k x x' hx hx' hstream hstream'
    obtain ⟨y, hy, hstream, -⟩ := hold hx hstream
    obtain ⟨y', hy', hstream', -⟩ := hold hx' hstream'
    exact h.once hy hy' hstream hstream'

theorem Fed.concat {l : List Grant} (h : Fed l) (stream : ∀ j, g.stream ≠ .delivered j) :
    Fed (l ++ [g]) := by
  have hold {j k : Nat} {x : Grant} (hx : (l ++ [g])[j]? = some x)
      (hstream : x.stream = .delivered k) : l[j]? = some x := by
    rcases Table.concat_cases hx with hx | ⟨-, rfl⟩
    · exact hx
    · exact absurd hstream (stream k)
  constructor
  · intro j k x hx hstream
    exact Table.exists_concat (h.receiver (hold hx hstream) hstream)
  · intro j j' k x x' hx hx' hstream hstream'
    exact h.once (hold hx hstream) (hold hx' hstream') hstream hstream'

theorem Fed.dropSender {l : List Grant} (h : Fed l) (o : Option Nat) :
    Fed (dropSender l o) := by
  obtain heq | ⟨j, g, entry, -, heq⟩ := dropSender_eq l o
  · rwa [heq]
  · rw [heq]
    exact h.set entry rfl (fun _ => id) (by simp [Grant.Awaiting])

theorem Fed.deliver {l : List Grant} {g h : Grant} (hf : Fed l) (entry : l[i]? = some g)
    (receiver : l[j]? = some h) (task : h.Awaiting) (key : h.key = g.key) :
    Fed ((l.set i { g with stream := .delivered j }).modify j fun h =>
      { h with task := .handling }) := by
  have hnone {k : Nat} {x : Grant} (hx : l[k]? = some x) : x.stream ≠ .delivered j := by
    intro hstream
    obtain ⟨h', hh', hnot, -⟩ := hf.receiver hx hstream
    rw [receiver, Option.some.injEq] at hh'
    exact hnot (hh' ▸ task)
  have hold {k m : Nat} {x : Grant}
      (hx : ((l.set i { g with stream := .delivered j }).modify j fun h =>
        { h with task := .handling })[k]? = some x) (hstream : x.stream = .delivered m) :
      i = k ∧ j = m ∧ x.key = g.key ∨
        ∃ y, l[k]? = some y ∧ y.stream = .delivered m ∧ y.key = x.key := by
    obtain ⟨y, hy, hxy⟩ := Table.modify_cases hx
    have hystream : y.stream = .delivered m ∧ y.key = x.key := by
      rcases hxy with ⟨-, rfl⟩ | ⟨-, rfl⟩ <;> exact ⟨hstream, rfl⟩
    rcases Table.set_cases hy with ⟨rfl, rfl⟩ | ⟨-, hy⟩
    · exact .inl ⟨rfl, Stream.delivered.inj hystream.1, hystream.2.symm⟩
    · exact .inr ⟨y, hy, hystream⟩
  constructor
  · intro k m x hx hstream
    rcases hold hx hstream with ⟨-, rfl, hxkey⟩ | ⟨y, hy, hystream, hykey⟩
    · obtain ⟨h', hh', hkey⟩ := Table.exists_set (P := fun h => h.key = g.key)
        (b := { g with stream := .delivered j }) ⟨h, receiver, key⟩ entry fun _ _ => rfl
      refine ⟨{ h' with task := .handling }, ?_, by simp [Grant.Awaiting], hkey.trans hxkey.symm⟩
      simp only [List.getElem?_modify, hh', if_true, Option.map_eq_map, Option.map_some]
    · obtain ⟨z, hz, hnot, hzkey⟩ := hf.receiver hy hystream
      have hrow : ∃ z, l[m]? = some z ∧ ¬z.Awaiting ∧ z.key = x.key :=
        ⟨z, hz, hnot, hzkey.trans hykey⟩
      refine Table.exists_modify (Table.exists_set hrow entry fun _ => id) ?_
      exact fun _ _ _ hz => ⟨by simp [Grant.Awaiting], hz.2⟩
  · intro k k' m x x' hx hx' hstream hstream'
    rcases hold hx hstream with ⟨rfl, rfl, -⟩ | ⟨y, hy, hystream, -⟩
    · rcases hold hx' hstream' with ⟨rfl, -⟩ | ⟨y', hy', hystream', -⟩
      · rfl
      · exact absurd hystream' (hnone hy')
    · rcases hold hx' hstream' with ⟨rfl, rfl, -⟩ | ⟨y', hy', hystream', -⟩
      · exact absurd hystream (hnone hy)
      · exact hf.once hy hy' hystream hystream'

theorem Fed.step {s t : Service} (h : Fed s.grants) (hm : Matched s.openedChannels s.grants)
    (hs : Step s a t) : Fed t.grants := by
  cases hs with
  | grant => exact h.concat nofun
  | openChannel i g entry task =>
    have hg := getElem?_dropSender (o := s.openedChannels.lookup g.key) entry task
    exact (h.dropSender _).set hg rfl (fun _ => id) fun _ => .inl task
  | answered j g _ entry | unanswered j g _ entry => exact h.set entry rfl (fun _ => id) id
  | established i g entry | failed i g entry => exact h.set entry rfl (fun _ => id) id
  | connectChannel i g entry => exact h.set entry rfl nofun id
  | acceptStream i g _ entry | identified i g _ entry | refused i g _ entry
  | notRegistered i g _ entry | alreadyClosed i j g _ entry => exact h.set entry rfl nofun id
  | delivered i j g x _ entry opened receiver task =>
    obtain ⟨y, hy, hkey, -⟩ := hm.task opened
    rw [receiver, Option.some.injEq] at hy
    exact h.deliver entry receiver (.inr task) (hy ▸ hkey)
  | finishOk i g entry | finishCancelled i g entry | finishNetwork i g entry
  | finishClosed i g entry | abort i g entry | retry i g entry =>
    exact h.set entry rfl (fun _ => id) (by simp [Grant.Awaiting])
  | _ => exact h

theorem fed {s : Service} (h : machine.Reaches C s) : Fed s.grants := by
  induction h with
  | init => exact ⟨nofun, nofun⟩
  | step hr _ hs ih => exact ih.step (matched hr) (step_sound hs)

def Supplied (l : List Grant) (i : Nat) : Prop :=
  ∃ (j : Nat) (g : Grant), l[j]? = some g ∧ g.stream = .delivered i

/-- The task of grant `i` has handled no stream.  Its queue, one of `n`, is not in `places`,
and the tasks that have had the queue before are over. -/
structure Last (n : Nat) (places : Multiset Registration) (l : List Grant) (i : Nat)
    (g : Grant) : Prop where
  unfed : g.task ≠ .handling ∧ g.task ≠ .retrying
  made : g.registration < n
  free : g.registration ∉ places
  others : ∀ {j : Nat} {h : Grant}, l[j]? = some h → h.registration = g.registration →
    j = i ∨ j < i ∧ h.task = .ended

def Spent (n : Nat) (places : Multiset Registration) (l : List Grant) : Prop :=
  ∀ (i : Nat) (g : Grant), l[i]? = some g → Supplied l i ∨ Last n places l i g

section

variable {n n' : Nat} {places places' : Multiset Registration} {l : List Grant}

theorem Supplied.set {g g' : Grant} (h : Supplied l k) (entry : l[i]? = some g)
    (stream : ∀ j, g.stream = .delivered j → g'.stream = .delivered j) :
    Supplied (l.set i g') k := by
  obtain ⟨j, x, hx, hstream⟩ := h
  obtain ⟨y, hy, hstream⟩ := Table.exists_set (P := fun g => g.stream = .delivered k)
    ⟨x, hx, hstream⟩ entry fun _ => stream k
  exact ⟨j, y, hy, hstream⟩

theorem Supplied.concat (h : Supplied l k) (g : Grant) : Supplied (l ++ [g]) k := by
  obtain ⟨j, x, hx, hstream⟩ := h
  exact ⟨j, x, Table.concat_of_row hx, hstream⟩

theorem Spent.mono (h : Spent n places l) (made : n ≤ n') (free : places' ≤ places) :
    Spent n' places' l := fun i g hi => by
  refine (h i g hi).imp_right fun hl => ?_
  exact ⟨hl.unfed, hl.made.trans_le made, fun hr => hl.free (Multiset.mem_of_le free hr), hl.others⟩

theorem Spent.place (h : Spent n places l)
    (used : ∀ (i : Nat) (g : Grant), l[i]? = some g → Last n places l i g →
      g.registration ≠ r) : Spent n (r ::ₘ places) l := fun i g hi => by
  refine (h i g hi).imp_right fun hl => ⟨hl.unfed, hl.made, ?_, hl.others⟩
  rw [Multiset.mem_cons, not_or]
  exact ⟨used i g hi hl, hl.free⟩

theorem Spent.set {g g' : Grant} (h : Spent n places l) (entry : l[i]? = some g)
    (registration : g'.registration = g.registration)
    (stream : ∀ j, g.stream = .delivered j → g'.stream = .delivered j)
    (task : Supplied l i ∨ (g.task ≠ .handling ∧ g.task ≠ .retrying →
      g'.task ≠ .handling ∧ g'.task ≠ .retrying))
    (ended : g.task = .ended → g'.task = .ended) : Spent n places (l.set i g') := by
  have hothers {k : Nat} {x : Grant} (hl : Last n places l k x) {j : Nat} {y : Grant}
      (hy : (l.set i g')[j]? = some y) (hr : y.registration = x.registration) :
      j = k ∨ j < k ∧ y.task = .ended := by
    rcases Table.set_cases hy with ⟨rfl, rfl⟩ | ⟨-, hy⟩
    · exact (hl.others entry (registration.symm.trans hr)).imp_right (.imp_right ended)
    · exact hl.others hy hr
  intro k x hx
  rcases Table.set_cases hx with ⟨rfl, rfl⟩ | ⟨-, hx⟩
  · rcases h i g entry with hs | hl
    · exact .inl (hs.set entry stream)
    · refine task.imp (fun hs => hs.set entry stream) fun htask => ?_
      exact ⟨htask hl.unfed, registration ▸ hl.made, registration ▸ hl.free,
        fun hy hr => hothers hl hy (hr.trans registration)⟩
  · refine (h k x hx).imp (fun hs => hs.set entry stream) fun hl => ?_
    exact ⟨hl.unfed, hl.made, hl.free, hothers hl⟩

theorem Spent.dropSender (h : Spent n places l) (o : Option Nat) :
    Spent n places (dropSender l o) := by
  obtain heq | ⟨j, g, entry, -, heq⟩ := dropSender_eq l o
  · rwa [heq]
  · rw [heq]
    exact h.set entry rfl (fun _ => id) (.inr (by simp)) fun _ => rfl

theorem Spent.grant {g : Grant} (h : Spent n (g.registration ::ₘ places) l)
    (task : g.task = .spawned) (made : g.registration < n) (free : g.registration ∉ places)
    (ended : ∀ h ∈ l, h.registration = g.registration → h.task = .ended) :
    Spent n places (l ++ [g]) := by
  intro i x hx
  rcases Table.concat_cases hx with hx | ⟨rfl, rfl⟩
  · refine (h i x hx).imp (fun hs => hs.concat g) fun hl => ?_
    refine ⟨hl.unfed, hl.made, fun hr => hl.free (Multiset.mem_cons_of_mem hr), ?_⟩
    intro j y hy hr
    rcases Table.concat_cases hy with hy | ⟨-, rfl⟩
    · exact hl.others hy hr
    · exact absurd (hr ▸ Multiset.mem_cons_self _ _) hl.free
  · refine .inr ⟨by simp [task], made, free, fun {j y} hy hr => ?_⟩
    rcases Table.concat_cases hy with hy | ⟨rfl, -⟩
    · exact .inr ⟨Table.lt_of_row hy, ended y (List.mem_of_getElem? hy) hr⟩
    · exact .inl rfl

theorem Spent.deliver {g h : Grant} (hsp : Spent n places l) (entry : l[i]? = some g)
    (stream : g.stream = .identified) (receiver : l[j]? = some h) (task : h.task = .parked) :
    Spent n places ((l.set i { g with stream := .delivered j }).modify j fun h =>
      { h with task := .handling }) := by
  have hset : Spent n places (l.set i { g with stream := .delivered j }) :=
    hsp.set entry rfl (by simp [stream]) (.inr id) id
  obtain ⟨h', hh', htask⟩ := Table.exists_set (P := fun h => h.task = .parked)
    (b := { g with stream := .delivered j }) ⟨h, receiver, task⟩ entry fun _ => id
  rw [Table.modify_eq_set hh']
  refine hset.set hh' rfl (fun _ => id) (.inl ⟨i, _, Table.set_self entry _, rfl⟩) ?_
  rw [htask]
  nofun

end

theorem Spent.step {s t : Service} (h : Spent s.registrations.length s.places s.grants)
    (he : s.Exclusive) (hst : Staged s.acceptLoop s.grants) (hs : Step s a t) :
    Spent t.registrations.length t.places t.grants := by
  cases hs with
  | registerChannel c =>
    have hplace := h.place fun _ _ _ hl => hl.made.ne
    rw [List.length_append, places, places_concat]
    exact hplace.mono (Nat.le_succ _) (le_refl _)
  | grant k c r socket entry =>
    have hplaces := places_grant entry
    have hholders : s.holders = _ := congrArg (· + running s.grants) hplaces.symm
    have hr : r ∈ s.holders := by simp [hholders]
    have honce := he.once
    rw [hholders, Multiset.cons_add, Multiset.nodup_cons] at honce
    refine Spent.grant (hplaces ▸ h) rfl (he.made r hr) (fun hr => ?_) fun g hg hr => ?_
    · exact honce.1 (Multiset.mem_add.mpr (.inl hr))
    · by_contra htask
      refine honce.1 (Multiset.mem_add.mpr (.inr (Multiset.mem_coe.mpr ?_)))
      exact List.mem_filterMap.mpr ⟨g, hg, (Grant.held_eq htask).trans (congrArg some hr)⟩
  | openChannel i g entry task =>
    have hg := getElem?_dropSender (o := s.openedChannels.lookup g.key) entry task
    exact (h.dropSender _).set hg rfl (fun _ => id) (.inr (by simp)) (by simp [task])
  | answered j g _ entry | unanswered j g _ entry =>
    exact h.set entry rfl (fun _ => id) (.inr id) id
  | established i g entry | failed i g entry =>
    exact h.set entry rfl (fun _ => id) (.inr id) id
  | connectChannel i g entry attempt =>
    have hstream := (hst.grant i g entry).absent (.inr attempt)
    exact h.set entry rfl (by simp [hstream]) (.inr id) id
  | acceptStream i g _ entry stream => exact h.set entry rfl (by simp [stream]) (.inr id) id
  | identified i g loop entry | refused i g loop entry | notRegistered i g loop entry
  | alreadyClosed i j g loop entry =>
    have hstream := hst.held_eq entry (by rw [loop]; rfl)
    exact h.set entry rfl (by simp [hstream]) (.inr id) id
  | delivered i j g x loop entry opened receiver task =>
    exact h.deliver entry (hst.held_eq entry (by rw [loop]; rfl)) receiver task
  | finishOk i g entry task | finishCancelled i g entry task | finishNetwork i g entry task
  | abort i g entry task =>
    exact h.set entry rfl (fun _ => id) (.inr (by simp [task])) (by simp [task])
  | finishClosed i g entry task =>
    have hset : Spent s.registrations.length s.places
        (s.grants.set i { g with task := .retrying }) :=
      h.set entry rfl (fun _ => id) (.inr (by simp [task])) (by simp [task])
    exact hset.mono (by simp) (le_refl _)
  | retry i g entry task =>
    have hplace : Spent s.registrations.length (g.registration ::ₘ s.places) s.grants := by
      refine h.place fun j x hx hl hr => ?_
      rcases hl.others entry hr.symm with rfl | ⟨-, hended⟩
      · rw [entry, Option.some.injEq] at hx
        exact hl.unfed.2 (hx ▸ task)
      · rw [task] at hended
        contradiction
    rw [places, places_concat]
    exact hplace.set entry rfl (fun _ => id) (.inr (by simp [task])) (by simp [task])
  | registered c r rest head =>
    refine h.mono ?_ (places_serve head (values_registered s c r))
    simp only
    split <;> simp
  | reopened c r rest head =>
    exact h.mono (le_refl _) (places_serve head (Map.values_insert_le s.registeredChannels c r))
  | closeQueue => exact h.mono (by simp [Service.closeQueue]) (le_refl _)
  | closeControl | stop => exact h.mono (by simp) (le_refl _)
  | _ => exact h

end Service

end BdsPro.Network.Receiver
