import BdsPro.Library.Checked
import BdsPro.Library.Ticker

/-! The program that sends packets at a given rate for a given time.  Times are in
milliseconds, and sending takes no time; the counters are unsigned with 64 bits, and leaving
their range is a panic. -/

namespace BdsPro.Udp.Bin

open BdsPro.Library

/-- `attempted` is history: the contents that were passed to `send_message_auto_seq`. -/
structure Packets where
  sent : Nat
  failed : Nat
  attempted : List String
  deriving DecidableEq

/-- How the program ends: it refuses the rate, panics, or finishes. -/
inductive AutoSenderResult
  | rejected
  | panicked
  | finished (packets : Packets)
  deriving DecidableEq

namespace AutoSender

def packetInterval (rate : Nat) : Nat := 1000 / rate

def totalDuration (duration : Nat) : Nat := 1000 * duration

def sendMessage (message : String) (ok : Bool) (p : Packets) : Option Packets :=
  (Checked.add 64 p.sent 1).bind fun number =>
    let p := { p with attempted := p.attempted ++ [s!"{message} #{number}"] }
    if ok then some { p with sent := number }
    else (Checked.add 64 p.failed 1).map fun failed => { p with failed := failed }

/-- `sends` tells for every tick what the sender returns.  A tick comes at least every
millisecond, so that the loop needs no more rounds. -/
def main (message : String) (rate duration : Nat) (sends : Nat → Bool) : AutoSenderResult :=
  if rate = 0 then .rejected
  else
    let packets := (Ticker.interval (packetInterval rate)).bind fun ticks =>
      Ticker.loop ticks (totalDuration duration) (fun k => sendMessage message (sends k))
        (totalDuration duration + 1) 0 ⟨0, 0, []⟩
    packets.elim .panicked .finished

/-- The interval is not zero, and whatever becomes of the packets, as many are attempted as the
rate asks for. -/
def Honours (rate duration : Nat) : Prop :=
  packetInterval rate ≠ 0 ∧ ∀ message sends, ∃ packets,
    main message rate duration sends = .finished packets ∧
      packets.attempted.length = rate * duration

end AutoSender

end BdsPro.Udp.Bin
