import BdsPro.Network.Receiver.ChannelHandler

namespace BdsPro.Network.Receiver

open BdsPro.Library

namespace ChannelHandler

inductive Step (h : ChannelHandler) : Event → ChannelHandler → Prop
  | cancel : Step h .cancel { h with cancelled := true }
  | cancelled (live : h.live = true) (cancelled : h.cancelled = true) :
    Step h .cancelled (h.fail .cancelled)
  | lost (phase : h.phase = .next) :
    Step h (.request none) (h.fail (.network "Connection Lost"))
  | garbled (phase : h.phase = .next) :
    Step h (.request (some (.error e))) (h.fail (.network e))
  | data (phase : h.phase = .next) :
    Step h (.request (some (.ok (.data b)))) { h with phase := .queueing b }
  | close (phase : h.phase = .next) :
    Step h (.request (some (.ok .close))) ({ h with queueClosed := true }.fail .closedByOtherSide)
  | refused (phase : h.phase = .queueing b) (closed : h.queueClosed = true) :
    Step h .push { h with phase := .closing false }
  | pushed (phase : h.phase = .queueing b) (opened : h.queueClosed = false)
      (room : h.queue.length < dataQueueLen) :
    Step h .push { h with
      queue := h.queue ++ [b]
      phase := .acking b.sequence false
      pushed := h.pushed ++ [b] }
  | acking (phase : h.phase = .acking seq fed)
      (sent : h.writer.pollSend responseCodec (.ackData seq) fed io = some (w, .pending fed')) :
    Step h (.send io) { h with writer := w, phase := .acking seq fed' }
  | acked (phase : h.phase = .acking seq fed)
      (sent : h.writer.pollSend responseCodec (.ackData seq) fed io = some (w, .done)) :
    Step h (.send io) { h with writer := w, phase := .next }
  | ackFailed (phase : h.phase = .acking seq fed)
      (sent : h.writer.pollSend responseCodec (.ackData seq) fed io = some (w, .failed e)) :
    Step h (.send io) ({ h with writer := w }.fail (.network e))
  | closing (phase : h.phase = .closing fed)
      (sent : h.writer.pollSend responseCodec .close fed io = some (w, .pending fed')) :
    Step h (.send io) { h with writer := w, phase := .closing fed' }
  | closed (phase : h.phase = .closing fed)
      (sent : h.writer.pollSend responseCodec .close fed io = some (w, .done)) :
    Step h (.send io) { h with writer := w, phase := .ended (.ok ()) }
  | closeFailed (phase : h.phase = .closing fed)
      (sent : h.writer.pollSend responseCodec .close fed io = some (w, .failed e)) :
    Step h (.send io) ({ h with writer := w }.fail (.network e))
  | pop : Step h .pop { h with queue := h.queue.tail }
  | closeQueue : Step h .closeQueue { h with queueClosed := true }

theorem Step.request {h : ChannelHandler} (phase : h.phase = .next) (r : Request) :
    Step h (.request r) (h.handleRequest r) := by
  cases r with
  | none => exact .lost phase
  | some r =>
    cases r with
    | error e => exact .garbled phase
    | ok r =>
      cases r with
      | data b => exact .data phase
      | close => exact .close phase

theorem Step.push {h t : ChannelHandler} (phase : h.phase = .queueing b)
    (ht : h.push b = some t) : Step h .push t := by
  unfold ChannelHandler.push at ht
  split at ht
  next closed => exact Option.some.inj ht ▸ .refused phase closed
  next opened =>
    obtain ⟨room, ht⟩ := Option.ite_none_right_eq_some.mp ht
    exact Option.some.inj ht ▸ .pushed phase (Bool.eq_false_iff.mpr opened) room

theorem Step.sendAck {h t : ChannelHandler} (phase : h.phase = .acking seq fed)
    (ht : h.sendAck seq fed io = some t) : Step h (.send io) t := by
  simp only [ChannelHandler.sendAck, Option.map_eq_some_iff, Prod.exists] at ht
  obtain ⟨w, sending, sent, rfl⟩ := ht
  cases sending with
  | pending fed' => exact .acking phase sent
  | done => exact .acked phase sent
  | failed e => exact .ackFailed phase sent

theorem Step.sendClose {h t : ChannelHandler} (phase : h.phase = .closing fed)
    (ht : h.sendClose fed io = some t) : Step h (.send io) t := by
  simp only [ChannelHandler.sendClose, Option.map_eq_some_iff, Prod.exists] at ht
  obtain ⟨w, sending, sent, rfl⟩ := ht
  cases sending with
  | pending fed' => exact .closing phase sent
  | done => exact .closed phase sent
  | failed e => exact .closeFailed phase sent

theorem step_sound {h t : ChannelHandler} (ht : h.step e = some t) : Step h e t := by
  unfold ChannelHandler.step at ht
  split at ht
  next => exact Option.some.inj ht ▸ .cancel
  next =>
    obtain ⟨⟨live, cancelled⟩, ht⟩ := Option.ite_none_right_eq_some.mp ht
    exact Option.some.inj ht ▸ .cancelled live cancelled
  next r phase => exact Option.some.inj ht ▸ .request phase r
  next b phase => exact .push phase ht
  next io seq fed phase => exact .sendAck phase ht
  next io fed phase => exact .sendClose phase ht
  next => exact Option.some.inj ht ▸ .pop
  next => exact Option.some.inj ht ▸ .closeQueue
  next => contradiction

def holding (h : ChannelHandler) : Option TupleBuffer :=
  match h.phase with
  | .queueing b => some b
  | _ => none

def serving (h : ChannelHandler) : Bool :=
  match h.phase with
  | .next | .queueing _ | .acking _ _ => true
  | _ => false

def reads : Event → Option TupleBuffer
  | .request (some (.ok r)) => r.buffer
  | _ => none

/-- An ACK is for a pushed buffer, and there are no NACKs. -/
def Truthful (pushed : List TupleBuffer) : DataChannelResponse → Prop
  | .ackData seq => ∃ b ∈ pushed, b.sequence = seq
  | .nackData _ => False
  | .close => True

structure Served (l : List TupleBuffer) (h : ChannelHandler) : Prop where
  read : ∃ lost, l = h.pushed ++ h.holding.toList ++ lost ∧ (h.serving = true → lost = [])
  responses : ∀ m ∈ h.writer.accepted, Truthful h.pushed m
  acking : ∀ seq fed, h.phase = .acking seq fed → ∃ b ∈ h.pushed, b.sequence = seq

theorem Served.stop {h t : ChannelHandler} (hs : h.Served l) (hpushed : t.pushed = h.pushed)
    (hresponses : ∀ m ∈ t.writer.accepted, Truthful h.pushed m)
    (hholding : t.holding = none) (hserving : t.serving = false)
    (hacking : ∀ seq fed, t.phase ≠ .acking seq fed) : t.Served l where
  read := by
    obtain ⟨lost, hl, -⟩ := hs.read
    refine ⟨h.holding.toList ++ lost, ?_, fun h => Bool.noConfusion (h.symm.trans hserving)⟩
    rw [hpushed, hholding, Option.toList_none, List.append_nil, ← List.append_assoc]
    exact hl
  responses := hpushed ▸ hresponses
  acking seq fed hp := absurd hp (hacking seq fed)

theorem Served.read_serving {h : ChannelHandler} (hs : h.Served l) (hserving : h.serving = true) :
    l = h.pushed ++ h.holding.toList := by
  obtain ⟨lost, hl, hlost⟩ := hs.read
  rwa [hlost hserving, List.append_nil] at hl

theorem Served.read_next {h : ChannelHandler} (hs : h.Served l) (hp : h.phase = .next) :
    l = h.pushed := by
  have hl := hs.read_serving (by simp only [serving, hp])
  simpa only [holding, hp, Option.toList_none, List.append_nil] using hl

theorem Served.read_queueing {h : ChannelHandler} (hs : h.Served l) (hp : h.phase = .queueing b) :
    l = h.pushed ++ [b] := by
  have hl := hs.read_serving (by simp only [serving, hp])
  simpa only [holding, hp, Option.toList_some] using hl

theorem Served.read_acking {h : ChannelHandler} (hs : h.Served l) (hp : h.phase = .acking seq fed) :
    l = h.pushed := by
  have hl := hs.read_serving (by simp only [serving, hp])
  simpa only [holding, hp, Option.toList_none, List.append_nil] using hl

theorem Served.go {h : ChannelHandler} (read : l = h.pushed ++ h.holding.toList)
    (responses : ∀ m ∈ h.writer.accepted, Truthful h.pushed m)
    (acking : ∀ seq fed, h.phase = .acking seq fed → ∃ b ∈ h.pushed, b.sequence = seq) :
    h.Served l :=
  ⟨⟨[], by rwa [List.append_nil], fun _ => rfl⟩, responses, acking⟩

theorem Truthful.push {pushed : List TupleBuffer} (h : Truthful pushed m) (b : TupleBuffer) :
    Truthful (pushed ++ [b]) m := by
  cases m with
  | ackData seq => exact h.imp fun b' hb' => ⟨List.mem_append_left _ hb'.1, hb'.2⟩
  | nackData seq => exact h
  | close => exact h

theorem Served.pollSend {h : ChannelHandler} (hs : h.Served l) (hm : Truthful h.pushed x)
    (hw : h.writer.pollSend responseCodec x fed io = some (w, sending)) :
    ∀ m ∈ w.accepted, Truthful h.pushed m := by
  obtain ⟨-, ⟨hacc, -⟩ | ⟨-, hacc, -⟩⟩ := FramedWrite.pollSend_eq_some hw
  · rw [hacc]
    exact hs.responses
  · rw [hacc]
    intro m hmem
    cases List.mem_append.mp hmem with
    | inl hmem => exact hs.responses m hmem
    | inr hmem => exact List.mem_singleton.mp hmem ▸ hm

theorem Served.step {h t : ChannelHandler} (hs : h.Served l) (ht : h.step e = some t) :
    t.Served (l ++ (reads e).toList) := by
  have hnil : l ++ [] = l := List.append_nil l
  cases step_sound ht with
  | cancel | pop | closeQueue => exact hnil.symm ▸ ⟨hs.read, hs.responses, hs.acking⟩
  | cancelled | lost | garbled | close | refused =>
    exact hnil.symm ▸ hs.stop rfl hs.responses rfl rfl nofun
  | data phase => exact .go (by rw [hs.read_next phase]; rfl) hs.responses nofun
  | pushed phase =>
    refine hnil.symm ▸ .go ?_ (fun m hm => (hs.responses m hm).push _) ?_
    · exact (hs.read_queueing phase).trans (List.append_nil _).symm
    · rintro seq fed ⟨⟩
      exact ⟨_, List.mem_append_right _ (List.mem_singleton_self _), rfl⟩
  | acking phase sent =>
    have hack := hs.acking _ _ phase
    refine hnil.symm ▸ .go ?_ (hs.pollSend (x := .ackData _) hack sent) ?_
    · exact (hs.read_acking phase).trans (List.append_nil _).symm
    · rintro _ _ ⟨⟩
      exact hack
  | acked phase sent =>
    have hresponses := hs.pollSend (x := .ackData _) (hs.acking _ _ phase) sent
    exact hnil.symm ▸ .go ((hs.read_acking phase).trans (List.append_nil _).symm) hresponses nofun
  | ackFailed phase sent =>
    have hresponses := hs.pollSend (x := .ackData _) (hs.acking _ _ phase) sent
    exact hnil.symm ▸ hs.stop rfl hresponses rfl rfl nofun
  | closing _ sent | closed _ sent | closeFailed _ sent =>
    exact hnil.symm ▸ hs.stop rfl (hs.pollSend (x := .close) trivial sent) rfl rfl nofun

theorem grows {h t : ChannelHandler} (ht : h.step e = some t) :
    h.pushed <+: t.pushed ∧ h.writer.wire <+: t.writer.wire := by
  cases step_sound ht with
  | cancel | cancelled | lost | garbled | data | close | refused | pop | closeQueue =>
    exact ⟨List.prefix_rfl, List.prefix_rfl⟩
  | pushed => exact ⟨List.prefix_append _ _, List.prefix_rfl⟩
  | acking _ sent | acked _ sent | ackFailed _ sent =>
    exact ⟨List.prefix_rfl, (FramedWrite.pollSend_eq_some sent).1⟩
  | closing _ sent | closed _ sent | closeFailed _ sent =>
    exact ⟨List.prefix_rfl, (FramedWrite.pollSend_eq_some sent).1⟩

theorem Served.new : new.Served [] :=
  ⟨⟨[], rfl, fun _ => rfl⟩, nofun, nofun⟩

end ChannelHandler

end BdsPro.Network.Receiver
