import BdsPro.Library.Fifo
import BdsPro.TestNode.NetworkSourceLaws

namespace BdsPro.TestNode

open BdsPro.Library BdsPro.Network BdsPro.Network.Receiver

theorem pushed_of_step {h t : Receiver.ChannelHandler} (hs : h.step e = some t) (pop : e ≠ .pop) :
    ∃ l, t.queue = h.queue ++ l ∧ t.pushed = h.pushed ++ l ∧ (h.queueClosed = true → l = []) ∧
      (h.queue.length ≤ ChannelHandler.dataQueueLen →
        t.queue.length ≤ ChannelHandler.dataQueueLen) := by
  cases ChannelHandler.step_sound hs with
  | pop => contradiction
  | pushed _ opened room =>
    refine ⟨_, rfl, rfl, fun closed => ?_, fun _ => ?_⟩
    · rw [opened] at closed
      contradiction
    · rw [List.length_append]
      exact room
  | _ => exact ⟨[], (List.append_nil _).symm, (List.append_nil _).symm, fun _ => rfl, id⟩

namespace NetworkSource

def hand (s : NetworkSource) : List TupleBuffer :=
  match s.thread with
  | some (.emitting d) => [d]
  | _ => []

structure Emitting (s : NetworkSource) : Prop where
  order : Fifo s.handler.pushed (s.emitted ++ s.hand) s.handler.queue
  room : s.handler.queue.length ≤ ChannelHandler.dataQueueLen
  leaving : s.thread = some .leaving → s.stopped = true
  finished : s.thread = some .finished →
    s.handler.queueClosed = true ∧ (s.stopped = false → s.handler.queue = [])

theorem Emitting.turn {s t : NetworkSource} (h : s.Emitting) (before : s.hand = [])
    (after : t.hand = []) (emitted : t.emitted = s.emitted)
    (queue : t.handler.queue = s.handler.queue) (pushed : t.handler.pushed = s.handler.pushed)
    (leaving : t.thread = some .leaving → t.stopped = true)
    (finished : t.thread = some .finished →
      t.handler.queueClosed = true ∧ (t.stopped = false → t.handler.queue = [])) :
    t.Emitting := by
  have horder := h.order
  rw [before] at horder
  refine ⟨?_, queue ▸ h.room, leaving, finished⟩
  rw [after, emitted, queue, pushed]
  exact horder

theorem Emitting.aside {s t : NetworkSource} (h : s.Emitting) (thread : t.thread = s.thread)
    (emitted : t.emitted = s.emitted) (stopped : t.stopped = false → s.stopped = false)
    (pushed : ∃ l, t.handler.queue = s.handler.queue ++ l ∧
      t.handler.pushed = s.handler.pushed ++ l ∧ (s.handler.queueClosed = true → l = []))
    (room : t.handler.queue.length ≤ ChannelHandler.dataQueueLen)
    (closed : s.handler.queueClosed = true → t.handler.queueClosed = true) : t.Emitting := by
  obtain ⟨l, hqueue, hpushed, hl⟩ := pushed
  have hand : t.hand = s.hand := by rw [hand, hand, thread]
  constructor
  · rw [Fifo, hpushed, hqueue, emitted, hand, h.order, List.append_assoc]
  · exact room
  · intro hleaving
    have hstopped := h.leaving (thread ▸ hleaving)
    by_contra hnot
    rw [stopped (Bool.eq_false_iff.mpr hnot)] at hstopped
    contradiction
  · intro hfinished
    obtain ⟨hclosed, hempty⟩ := h.finished (thread ▸ hfinished)
    refine ⟨closed hclosed, fun hstopped => ?_⟩
    rw [hqueue, hempty (stopped hstopped), hl hclosed]
    rfl

theorem hand_of_thread {s : NetworkSource} (thread : s.thread = p)
    (free : ∀ d, p ≠ some (.emitting d)) : s.hand = [] := by
  unfold hand
  split
  next d hp => exact absurd (thread.symm.trans hp) (free d)
  next => rfl

theorem Emitting.step {s t : NetworkSource} (h : s.Emitting) (hs : s.step a = some t) :
    t.Emitting := by
  have hsame : ∃ l, s.handler.queue = s.handler.queue ++ l ∧
      s.handler.pushed = s.handler.pushed ++ l ∧ (s.handler.queueClosed = true → l = []) :=
    ⟨[], (List.append_nil _).symm, (List.append_nil _).symm, fun _ => rfl⟩
  cases step_sound hs with
  | start thread | wake thread =>
    exact h.turn (hand_of_thread thread (by simp)) rfl rfl rfl rfl nofun nofun
  | check thread =>
    have hbefore := hand_of_thread thread (by simp)
    by_cases hstopped : s.stopped = true
    · refine h.turn hbefore (hand_of_thread rfl (by simp [hstopped])) rfl rfl rfl
        (fun _ => hstopped) (by simp [hstopped])
    · refine h.turn hbefore (hand_of_thread rfl (by simp [hstopped])) rfl rfl rfl ?_ ?_
      · simp [hstopped]
      · simp [hstopped]
  | receive d rest thread queue =>
    have horder := h.order
    have hroom := h.room
    rw [hand_of_thread thread (by simp), List.append_nil, queue] at horder
    rw [queue] at hroom
    exact ⟨horder.leave, (Nat.le_succ _).trans hroom, nofun, nofun⟩
  | closed thread queue closed =>
    exact h.turn (hand_of_thread thread (by simp)) rfl rfl rfl rfl nofun
      fun _ => ⟨closed, fun _ => queue⟩
  | emit d thread =>
    have hand : s.hand = [d] := by simp only [hand, thread]
    have horder := h.order
    rw [hand] at horder
    refine ⟨?_, h.room, nofun, nofun⟩
    exact (List.append_nil (s.emitted ++ [d])).symm ▸ horder
  | leave thread =>
    refine h.turn (hand_of_thread thread (by simp)) rfl rfl rfl rfl nofun
      fun _ => ⟨rfl, fun hopen => ?_⟩
    exact Bool.noConfusion ((h.leaving thread).symm.trans hopen)
  | untaken => exact h
  | take => exact h.aside rfl rfl nofun hsame h.room id
  | joined | join | cancel | connect | reopen =>
    exact h.aside rfl rfl id hsame h.room id
  | drop | replaced => exact h.aside rfl rfl id hsame h.room fun _ => rfl
  | handle _ handled pop =>
    obtain ⟨l, hqueue, hpushed, hl, hroom⟩ := pushed_of_step handled pop
    exact h.aside rfl rfl id ⟨l, hqueue, hpushed, hl⟩ (hroom h.room) (queue_of_step handled pop).2

theorem emitting_of_reachable {s : NetworkSource} (h : machine.Reachable s) : s.Emitting := by
  refine h.invariant (I := Emitting) ⟨rfl, by decide, nofun, nofun⟩ ?_
  exact fun s a t _ ih _ hs => ih.step hs

theorem emitted_in_order {s : NetworkSource} (h : machine.Reachable s) :
    s.handler.pushed = s.emitted ++ s.hand ++ s.handler.queue ∧
      (s.thread = some .finished → ∃ lost, s.handler.pushed = s.emitted ++ lost ∧
        lost.length ≤ ChannelHandler.dataQueueLen ∧ (s.stopped = false → lost = [])) := by
  have hs := emitting_of_reachable h
  refine ⟨hs.order, fun hfinished => ⟨s.handler.queue, ?_, hs.room, (hs.finished hfinished).2⟩⟩
  have horder := hs.order
  rwa [hand_of_thread hfinished (by simp), List.append_nil] at horder

theorem emitted_in_order_stopped :
    ∃ s lost, machine.Reachable s ∧ s.handler.pushed = s.emitted ++ lost ∧
      s.emitted = [exampleBuffer 1 []] ∧ lost = [exampleBuffer 2 []] := by
  obtain ⟨s, hs, hfinished, hemitted, hpushed⟩ := Machine.exists_reaches_of_replay (M := machine)
    (C := fun _ _ => True)
    (P := fun s => s.thread = some .finished ∧ s.emitted = [exampleBuffer 1 []] ∧
      s.handler.pushed = [exampleBuffer 1 []] ++ [exampleBuffer 2 []])
    [.start, .run, .connect, .handle (.request (some (.ok (.data (exampleBuffer 1 []))))),
      .handle .push, .run, .run, .handle (.send .complete), .handle (.send .complete),
      .handle (.request (some (.ok (.data (exampleBuffer 2 []))))), .handle .push,
      .handle (.send .complete), .handle (.send .complete), .stop, .run, .run, .run] (by decide)
  obtain ⟨lost, hlost, -⟩ := (emitted_in_order hs).2 hfinished
  refine ⟨s, lost, hs, hlost, hemitted, ?_⟩
  rw [hpushed, hemitted] at hlost
  exact (List.append_cancel_left hlost).symm

end NetworkSource

end BdsPro.TestNode
