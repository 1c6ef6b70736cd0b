/-
Processes that send packets to each other.

A network consists of the daemons of the processes, what each process dispatches its receive queue
to, and the packets that were enqueued.  `Network.Inv` follows the packets that are on their way
to one process; it holds along every run of the operations below.
-/
import RmwDesert.Mailbox

namespace RmwDesert

open InterpretPackets
open TcpDaemon (Daemon Delivers Pass Passage RepeatsStart)

/-- The processes, each with a state of its own, and what each of them enqueued. -/
structure Network (ι S α : Type) where
  daemons : ι → Daemon
  locals : ι → S
  log : ι → List (Entry α)

namespace Network

variable {ι S α : Type} [DecidableEq ι]

/-- A packet is enqueued. -/
def enqueue (g : ι) (e : Entry α) (s : Network ι S α) : Network ι S α := { s with
  daemons := Function.update s.daemons g ((s.daemons g).enqueuePacket e.packet)
  log := Function.update s.log g (s.log g ++ [e]) }

/-- A turn of a transmitter, and who hears what it sends. -/
def turn (g : ι) (heard : ι → Bool) (s : Network ι S α) : Network ι S α :=
  { s with daemons := TcpDaemon.broadcast g heard s.daemons }

/-- A pass of a receiver. -/
def rxPass (h : ι) (pass : Pass) (s : Network ι S α) : Network ι S α :=
  { s with daemons := Function.update s.daemons h ((s.daemons h).rxPass pass) }

/-- A process takes packets out of its receive queue, and works with them. -/
def setLocal (h : ι) (rxPackets : List Packet) (l : S) (s : Network ι S α) :
    Network ι S α := { s with
  daemons := Function.update s.daemons h ((s.daemons h).leaving rxPackets)
  locals := Function.update s.locals h l }

/-- Nothing was sent, and nothing was received by the process. -/
structure Silent (h : ι) (s : Network ι S α) : Prop where
  transmitter : ∀ g, (s.daemons g).transmitter = .initial
  log : ∀ g, s.log g = []
  incoming : (s.daemons h).incoming = []
  receiver : (s.daemons h).receiver = .initial

/-- Nothing is on its way to the receive queue of the process, and nothing is in it. -/
structure Settled (h : ι) (s : Network ι S α) : Prop where
  txPackets : ∀ g, (s.daemons g).transmitter.txPackets = []
  incoming : (s.daemons h).incoming = []
  rxPackets : (s.daemons h).receiver.rxPackets = []

/-- The packets that were enqueued are lawful, and the passage accounts for those that have
reached the process of the mailbox. -/
structure Inv (N : NanoCbor) (config : TopicsConfig) (box : Mailbox) (P : Entry α → Prop) (h : ι)
    (lossless : Prop) (s : Network ι S α) (p : Passage ι (Entry α)) : Prop where
  delivers : Delivers Entry.packet h lossless s.daemons s.log p
  lawful : ∀ g, ∀ e ∈ s.log g, box.Lawful N config e ∧ P e

variable {N : NanoCbor} {config : TopicsConfig} {box : Mailbox} {P : Entry α → Prop} {h : ι}
  {lossless : Prop} {s : Network ι S α} {p : Passage ι (Entry α)}

lemma Silent.inv (hs : s.Silent h) (lossless : Prop) :
    Inv N config box P h lossless s ⟨[], 0, [], []⟩ where
  delivers := by
    rw [funext hs.log]
    exact Delivers.start hs.transmitter hs.incoming hs.receiver
  lawful g := by
    rw [hs.log]
    exact nofun

namespace Inv

lemma enqueue (hN : N.Lawful) (hs : Inv N config box P h lossless s p) (g : ι) {e : Entry α}
    (he : box.Lawful N config e ∧ P e) :
    ∃ p', p'.dispatched = p.dispatched ∧ Inv N config box P h lossless (s.enqueue g e) p' := by
  obtain ⟨p', hdispatched, hdelivers⟩ := hs.delivers.enqueue g (he.1.framed hN)
  refine ⟨p', hdispatched, hdelivers, fun i e' he' => ?_⟩
  change e' ∈ Function.update s.log g _ i at he'
  rcases eq_or_ne i g with rfl | hi
  · rw [Function.update_self] at he'
    rcases List.mem_append.mp he' with he' | he'
    · exact hs.lawful i e' he'
    · obtain rfl := List.mem_singleton.mp he'
      exact he
  · rw [Function.update_of_ne hi] at he'
    exact hs.lawful i e' he'

lemma turn (hs : Inv N config box P h lossless s p) (g : ι) {heard : ι → Bool}
    (hlossless : lossless → g ≠ h → heard h = true) :
    ∃ p', p'.dispatched = p.dispatched ∧ Inv N config box P h lossless (s.turn g heard) p' := by
  obtain ⟨p', hdispatched, hdelivers⟩ := hs.delivers.broadcast g hlossless
  exact ⟨p', hdispatched, hdelivers, hs.lawful⟩

lemma rxPass (hs : Inv N config box P h lossless s p) (i : ι) {pass : Pass}
    (hpass : pass.received <+: (s.daemons i).incoming ∧ RepeatsStart [] pass.reads) :
    ∃ p', p'.dispatched = p.dispatched ∧ Inv N config box P h lossless (s.rxPass i pass) p' := by
  obtain ⟨p', hdispatched, hdelivers⟩ := hs.delivers.rxPass i fun _ => hpass
  exact ⟨p', hdispatched, hdelivers, hs.lawful⟩

/-- Another process works. -/
lemma setLocal_of_ne (hs : Inv N config box P h lossless s p) {i : ι} (hi : h ≠ i)
    (rxPackets : List Packet) (l : S) :
    Inv N config box P h lossless (s.setLocal i rxPackets l) p := by
  refine ⟨hs.delivers.congr (fun g => ?_) (Function.update_of_ne hi ..), hs.lawful⟩
  show (Function.update s.daemons i _ g).transmitter = _
  rcases eq_or_ne g i with rfl | hg
  · rw [Function.update_self]
    rfl
  · rw [Function.update_of_ne hg]

/-- The process works, and leaves the queue as it is. -/
lemma setLocal_self (hs : Inv N config box P h lossless s p) (l : S) :
    Inv N config box P h lossless
      (s.setLocal h (s.daemons h).receiver.rxPackets l) p := by
  refine ⟨?_, hs.lawful⟩
  show Delivers _ _ _ (Function.update s.daemons h ((s.daemons h).leaving _)) _ _
  have hsame : (s.daemons h).leaving (s.daemons h).receiver.rxPackets = s.daemons h := rfl
  rw [hsame, Function.update_eq_self]
  exact hs.delivers

/-- The process takes the whole queue. -/
lemma dispatch (hs : Inv N config box P h lossless s p) (l : S) :
    Inv N config box P h lossless (s.setLocal h [] l)
      { p with dispatched := p.dispatched ++ p.pending, pending := [] } :=
  ⟨hs.delivers.dispatch, hs.lawful⟩

/-- The packets that have reached the receive queue. -/
lemma lawful_of_mem (hs : Inv N config box P h lossless s p) {e : Entry α}
    (he : e ∈ (p.dispatched ++ p.pending).map Prod.snd) : box.Lawful N config e ∧ P e := by
  obtain ⟨entry, hentry, rfl⟩ := List.mem_map.mp he
  exact hs.lawful entry.1 entry.2 (hs.delivers.mem_log hentry)

lemma pending_lawful (hs : Inv N config box P h lossless s p) :
    ∀ e ∈ p.pending.map Prod.snd, box.Lawful N config e := by
  intro e he
  exact (hs.lawful_of_mem (by rw [List.map_append]; exact List.mem_append_right _ he)).1

lemma dispatched_holds (hs : Inv N config box P h lossless s p) :
    ∀ e ∈ p.dispatched.map Prod.snd, P e := by
  intro e he
  exact (hs.lawful_of_mem (by rw [List.map_append]; exact List.mem_append_left _ he)).2

lemma queue_eq (hs : Inv N config box P h lossless s p) :
    (s.daemons h).receiver.rxPackets = (p.pending.map Prod.snd).map Entry.packet := by
  rw [List.map_map]
  exact hs.delivers.queue

end Inv

end Network

end RmwDesert
