import SriovMacSync.Netlink.Requests

namespace SriovMacSync.Netlink

open Data Interaction Interaction.Action

/-! # The subscription

One wake takes what is queued, up to a bound.  What the kernel could not queue is told by
the next look, and a look that fails makes the caller read the real state.  Between two
failures no notification gets lost, and none is seen twice. -/

namespace Socket

/-- The most datagrams one wake takes. -/
def drainCap : Nat := 256

def eventsFrom (capacity : Nat) : Nat → Events → Asking (Except IoError Events)
  | 0, out => return .ok out
  | rounds + 1, out => do
      let got ← recvInto capacity false 64
      match got with
      -- the queue is empty
      | .error .wouldBlock => return .ok out
      | .error error => return .error error
      | .ok datagram =>
          if capacity < datagram.length then
            return .error (.other "a notification batch outgrew the buffer")
          else eventsFrom capacity rounds (collectEvents out datagram)

/-- What arrived since the last look. -/
def recvEvents : Asking (Except IoError Events) := do
  takeBuf (64 * 1024)
  let capacity := (← get).capacity
  eventsFrom capacity drainCap {}

end Socket

section Batches

/-- One batch behind another. -/
def Events.append (first second : Events) : Events where
  fdb := first.fdb ++ second.fdb
  linksChanged := first.linksChanged || second.linksChanged
  changedLinks := first.changedLinks ++ second.changedLinks

def Events.joined (batches : List Events) : Events := batches.foldl Events.append {}

@[simp] theorem Events.append_empty (batch : Events) : batch.append {} = batch := by simp [append]

@[simp] theorem Events.empty_append (batch : Events) : Events.append {} batch = batch := by simp [append]

theorem Events.append_assoc (first second third : Events) :
    (first.append second).append third = first.append (second.append third) := by
  simp [append, Bool.or_assoc]

theorem collectEvent_append (first out : Events) (msg : Message) :
    collectEvent (first.append out) msg = first.append (collectEvent out msg) := by
  simp only [collectEvent]
  split
  · simp [Events.append]
  · split
    · rfl
    · split
      · rfl
      · cases parseFdb msg.payload <;> simp [Events.append]

theorem collectEvents_append (first out : Events) (datagram : List UInt8) :
    collectEvents (first.append out) datagram = first.append (collectEvents out datagram) := by
  simp only [collectEvents]
  induction messages datagram generalizing out with
  | nil => rfl
  | cons msg rest ih => rw [List.foldl_cons, List.foldl_cons, collectEvent_append, ih]

/-- A run of datagrams read in several goes is read in one. -/
theorem foldl_collectEvents (first : Events) (read : List (List UInt8)) :
    read.foldl collectEvents first = first.append (read.foldl collectEvents {}) := by
  have from_append : ∀ out, read.foldl collectEvents (first.append out) = first.append (read.foldl collectEvents out) := by
    induction read with
    | nil => exact fun out => rfl
    | cons datagram rest ih =>
        intro out
        rw [List.foldl_cons, List.foldl_cons, collectEvents_append, ih]
  simpa using from_append {}

end Batches

section Feeds

/-- What the kernel has for a subscription. -/
structure Feed where
  /-- what no look has taken -/
  queue : List (List UInt8) := []
  /-- something found no room, and the next look is told -/
  overrun : Bool := false
  /-- everything the kernel said, whether there was room or not -/
  said : List (List UInt8) := []

def enobufs : Nat := 105

/-- What the kernel says is queued, or some of it gets lost. -/
inductive Arrives (feed : Feed) : Feed → Prop where
  | queued (more : List (List UInt8)) :
      Arrives feed { feed with queue := feed.queue ++ more, said := feed.said ++ more }
  | lost {more kept : List (List UInt8)} (some : kept.Sublist more) :
      Arrives feed { queue := feed.queue ++ kept, overrun := true, said := feed.said ++ more }

/-- What a look gives.  A loss is told before anything that is queued. -/
inductive Looked (feed : Feed) : Except IoError Datagram → Feed → Prop where
  | told (overrun : feed.overrun = true) : Looked feed (.error (.os enobufs)) { feed with overrun := false }
  | taken {bytes : List UInt8} {rest : List (List UInt8)} (steady : feed.overrun = false)
      (queued : feed.queue = bytes :: rest) : Looked feed (.ok ⟨0, bytes⟩) { feed with queue := rest }
  | foreign {datagram : Datagram} (steady : feed.overrun = false) (port : datagram.port ≠ 0) :
      Looked feed (.ok datagram) feed
  | nothing (steady : feed.overrun = false) : Looked feed (.error .wouldBlock) feed
  | failed {error : IoError} (steady : feed.overrun = false) (apart : error ≠ .wouldBlock) :
      Looked feed (.error error) feed

def subscribed : Environment SocketCall SocketReply Feed where
  permits _ request :=
    match request with
    | .recvFrom .. => True
    | _ => False
  answers feed request reply after :=
    match request with
    | .recvFrom .. => ∃ later, Arrives feed later ∧ Looked later reply after
    | _ => False

/-- From one feed to the other exactly these were taken, and nothing got lost. -/
structure Kept (feed : Feed) (read : List (List UInt8)) (after : Feed) : Prop where
  steady : feed.overrun = false ∧ after.overrun = false
  taken : ∃ more, after.said = feed.said ++ more ∧ feed.queue ++ more = read ++ after.queue

variable {feed after : Feed} {socket left : Socket}

theorem Kept.refl (steady : feed.overrun = false) : Kept feed [] feed := ⟨⟨steady, steady⟩, [], by simp, by simp⟩

theorem Kept.trans {middle : Feed} {read further : List (List UInt8)} (first : Kept feed read middle)
    (second : Kept middle further after) : Kept feed (read ++ further) after := by
  obtain ⟨more, said, taken⟩ := first.taken
  obtain ⟨later, said', taken'⟩ := second.taken
  refine ⟨⟨first.steady.1, second.steady.2⟩, more ++ later, ?_, ?_⟩
  · rw [said', said, List.append_assoc]
  · rw [← List.append_assoc, taken, List.append_assoc, taken', List.append_assoc]

theorem Arrives.kept (arrives : Arrives feed after) (steady : after.overrun = false) : Kept feed [] after := by
  cases arrives with
  | queued more => exact ⟨⟨steady, steady⟩, more, rfl, rfl⟩
  | lost => cases steady

theorem recvInto_subscribed (capacity : Nat) (wait : Bool) (spoofs : Nat)
    (looks : spoofs ≠ 0 ∨ feed.overrun = false) :
    Safe subscribed (Socket.recvInto capacity wait spoofs) (fun got left after => left = socket ∧
      (∀ bytes, got = .ok bytes → Kept feed [bytes] after) ∧ (got = .error .wouldBlock → Kept feed [] after))
      socket feed := by
  induction spoofs generalizing wait feed with
  | zero =>
      refine ⟨rfl, fun _ got => (by cases got), fun _ => ?_⟩
      exact .refl (looks.resolve_left (by simp))
  | succ spoofs ih =>
      refine safe_bind.mpr (safe_ask.mpr ⟨trivial, ?_⟩)
      intro got after answered
      obtain ⟨later, arrives, looked⟩ := answered
      cases looked with
      | told => exact ⟨rfl, fun _ got => (by cases got), fun got => (by cases got)⟩
      | @taken bytes rest steady queued =>
          have taken : Kept later [bytes] { later with queue := rest } :=
            ⟨⟨steady, steady⟩, [], by simp, by simpa using queued⟩
          refine ⟨rfl, ?_, fun got => (by cases got)⟩
          intro read got
          cases got
          exact (arrives.kept steady).trans taken
      | foreign steady port =>
          simp only [if_pos port]
          refine (ih false (.inr steady)).mono ?_
          intro got left after known
          refine ⟨known.1, ?_, ?_⟩
          · intro bytes ok
            exact (arrives.kept steady).trans (known.2.1 bytes ok)
          · intro empty
            exact (arrives.kept steady).trans (known.2.2 empty)
      | nothing steady => exact ⟨rfl, fun _ got => (by cases got), fun _ => arrives.kept steady⟩
      | failed steady apart =>
          refine ⟨rfl, fun _ got => (by cases got), fun got => ?_⟩
          cases got
          exact absurd rfl apart

theorem eventsFrom_subscribed (capacity rounds : Nat) (out : Events) (looks : rounds ≠ 0 ∨ feed.overrun = false) :
    Safe subscribed (Socket.eventsFrom capacity rounds out) (fun got left after => left = socket ∧
      ∀ events, got = .ok events → ∃ read, Kept feed read after ∧ events = read.foldl collectEvents out)
      socket feed := by
  induction rounds generalizing feed out with
  | zero =>
      refine ⟨rfl, ?_⟩
      intro events got
      cases got
      exact ⟨[], .refl (looks.resolve_left (by simp)), rfl⟩
  | succ rounds ih =>
      refine safe_bind.mpr ((recvInto_subscribed capacity false 64 (.inl (by simp))).mono ?_)
      intro got left after known
      obtain ⟨rfl, read, empty⟩ := known
      cases got with
      | error error =>
          cases error with
          | wouldBlock =>
              refine ⟨rfl, ?_⟩
              intro events got
              cases got
              exact ⟨[], empty rfl, rfl⟩
          | os code => exact ⟨rfl, fun _ got => (by cases got)⟩
          | timedOut text => exact ⟨rfl, fun _ got => (by cases got)⟩
          | other text => exact ⟨rfl, fun _ got => (by cases got)⟩
      | ok datagram =>
          have taken := read datagram rfl
          dsimp only
          split
          · exact ⟨rfl, fun _ got => (by cases got)⟩
          · refine (ih _ (.inr taken.steady.2)).mono ?_
            intro got left later known
            refine ⟨known.1, ?_⟩
            intro events ok
            obtain ⟨rest, kept, rfl⟩ := known.2 events ok
            exact ⟨datagram :: rest, taken.trans kept, rfl⟩

theorem recvEvents_subscribed : Safe subscribed Socket.recvEvents (fun got _ after =>
    ∀ events, got = .ok events → ∃ read, Kept feed read after ∧ events = read.foldl collectEvents {})
    socket feed := by
  unfold Socket.recvEvents
  rw [safe_bind, Socket.takeBuf, safe_modify, safe_bind, safe_get]
  refine (eventsFrom_subscribed _ Socket.drainCap {} (.inl (by decide))).mono ?_
  intro got left after known
  exact known.2

/-- The life of a subscription: the batches since the last call that failed, and the feed
as that left it. -/
inductive Listening : List Events → Feed → Socket → Feed → Prop where
  | opened (socket : Socket) : Listening [] {} socket {}
  | waited {batches : List Events} {mark feed after : Feed} {socket : Socket}
      (life : Listening batches mark socket feed) (arrives : Arrives feed after) :
      Listening batches mark socket after
  | heard {batches : List Events} {mark feed after : Feed} {socket left : Socket} {events : Events}
      (life : Listening batches mark socket feed)
      (ran : Runs subscribed Socket.recvEvents socket feed (.ok events) left after) :
      Listening (batches ++ [events]) mark left after
  | failed {batches : List Events} {mark feed after : Feed} {socket left : Socket} {error : IoError}
      (life : Listening batches mark socket feed)
      (ran : Runs subscribed Socket.recvEvents socket feed (.error error) left after) :
      Listening [] after left after

theorem Listening.kept {batches : List Events} {mark : Feed} (life : Listening batches mark socket feed) :
    feed.overrun = true ∨ ∃ read, Kept mark read feed ∧ Events.joined batches = read.foldl collectEvents {} := by
  induction life with
  | opened => exact .inr ⟨[], .refl rfl, rfl⟩
  | @waited batches mark feed after socket life arrives ih =>
      cases overrun : after.overrun with
      | true => exact .inl rfl
      | false =>
          have quiet := arrives.kept overrun
          rcases ih with lost | ⟨read, kept, handed⟩
          · rw [quiet.steady.1] at lost
            cases lost
          · exact .inr ⟨read, by simpa using kept.trans quiet, handed⟩
  | @heard batches mark feed after socket left events life ran ih =>
      obtain ⟨further, kept, rfl⟩ := recvEvents_subscribed.runs ran events rfl
      rcases ih with lost | ⟨read, before, handed⟩
      · rw [kept.steady.1] at lost
        cases lost
      · refine .inr ⟨read ++ further, before.trans kept, ?_⟩
        rw [Events.joined, List.foldl_append, List.foldl_append, ← handed, foldl_collectEvents (Events.joined batches)]
        rfl
  | @failed batches mark feed after socket left error life ran ih =>
      cases overrun : after.overrun with
      | true => exact .inl rfl
      | false => exact .inr ⟨[], .refl overrun, rfl⟩

/-- A call that succeeds has handed out, with those since the last one that failed, what
the kernel said since, up to what is still queued: nothing else, nothing twice and in its
order. -/
theorem events_arrive_once {batches : List Events} {mark : Feed} (life : Listening batches mark socket feed)
    {events : Events} (ran : Runs subscribed Socket.recvEvents socket feed (.ok events) left after) :
    ∃ read more, after.said = mark.said ++ more ∧ mark.queue ++ more = read ++ after.queue ∧
      Events.joined (batches ++ [events]) = read.foldl collectEvents {} := by
  obtain ⟨further, kept, rfl⟩ := recvEvents_subscribed.runs ran events rfl
  rcases (Listening.heard life ran).kept with lost | ⟨read, all, handed⟩
  · rw [kept.steady.2] at lost
    cases lost
  · obtain ⟨more, said, taken⟩ := all.taken
    exact ⟨read, more, said, taken, handed⟩

/-- A link's message that tells of nothing but its index. -/
def linkNews (index : UInt8) : List UInt8 :=
  [32, 0, 0, 0, 16, 0, 0, 0, 0, 0, 0, 0, 0, 0, 0, 0, 0, 0, 0, 0, index, 0, 0, 0, 0, 0, 0, 0, 0, 0, 0, 0]

/-- Everything was taken. -/
def taken (said : List (List UInt8)) : Feed := { said }

/-- A look that takes the datagram which has just come. -/
theorem runs_taking {capacity : Nat} (said : List (List UInt8)) (bytes : List UInt8) :
    Runs subscribed (Socket.recvInto capacity false 64) socket (taken said) (.ok bytes) socket
      (taken (said ++ [bytes])) := by
  have looked : Looked ⟨[bytes], false, said ++ [bytes]⟩ (.ok ⟨0, bytes⟩) (taken (said ++ [bytes])) := .taken rfl rfl
  exact runs_bind.mpr ⟨.ok ⟨0, bytes⟩, socket, _, runs_ask.mpr ⟨⟨_, .queued [bytes], looked⟩, rfl⟩,
    runs_pure.mpr ⟨rfl, rfl, rfl⟩⟩

theorem runs_nothing {capacity : Nat} (said : List (List UInt8)) :
    Runs subscribed (Socket.recvInto capacity false 64) socket (taken said) (.error .wouldBlock) socket (taken said) := by
  have looked : Looked ⟨[], false, said ++ []⟩ (.error .wouldBlock) ⟨[], false, said ++ []⟩ := .nothing rfl
  rw [List.append_nil] at looked
  have arrives : Arrives (taken said) ⟨[], false, said ++ []⟩ := .queued []
  rw [List.append_nil] at arrives
  exact runs_bind.mpr ⟨.error .wouldBlock, socket, _, runs_ask.mpr ⟨⟨_, arrives, looked⟩, rfl⟩,
    runs_pure.mpr ⟨rfl, rfl, rfl⟩⟩

/-- A call that finds one datagram. -/
theorem runs_recvEvents {capacity : Nat} {seq : UInt32} (said : List (List UInt8)) (bytes : List UInt8)
    (small : bytes.length ≤ 64 * 1024) : Runs subscribed Socket.recvEvents ⟨seq, capacity⟩ (taken said)
      (.ok (collectEvents {} bytes)) ⟨seq, max capacity (64 * 1024)⟩ (taken (said ++ [bytes])) := by
  refine runs_bind.mpr ⟨PUnit.unit, ⟨seq, max capacity (64 * 1024)⟩, taken said, runs_modify.mpr ⟨rfl, rfl⟩, ?_⟩
  refine runs_bind.mpr ⟨_, _, _, runs_get.mpr ⟨rfl, rfl, rfl⟩, ?_⟩
  refine runs_bind.mpr ⟨_, _, _, runs_taking said bytes, ?_⟩
  dsimp only
  rw [if_neg (by omega)]
  exact runs_bind.mpr ⟨_, _, _, runs_nothing _, runs_pure.mpr ⟨rfl, rfl, rfl⟩⟩

theorem events_arrive_once_links : ∃ read more : List (List UInt8),
    [linkNews 3, linkNews 4] = [] ++ more ∧ [] ++ more = read ++ [] ∧
      Events.joined [collectEvents {} (linkNews 3), collectEvents {} (linkNews 4)] = read.foldl collectEvents {} :=
  events_arrive_once (.heard (.opened ⟨1, 0⟩) (runs_recvEvents [] (linkNews 3) (by decide)))
    (runs_recvEvents [linkNews 3] (linkNews 4) (by decide))

end Feeds

end SriovMacSync.Netlink
