import A3sBench.FileTree
import A3sBench.Result
import A3sBench.Library.Runs

/-!
# The tunnel of the CONNECT proxy

`relay_tunnel` up to its calls to the kernel: a turn of its loop up to what
`select` returns, then one `recv` or `send` at a time.
-/

namespace A3sBench.ConnectProxy

open Library (System)

def maxDirectionBufferBytes : Nat := 1024 * 1024

def maxTunnelBytes : Nat := 256 * 1024 * 1024

def relayChunkBytes : Nat := 64 * 1024

def idleTimeoutSeconds : ℚ := 300

def maxTunnelLifetimeSeconds : ℚ := 3600

inductive Socket where
  | client
  | upstream
  deriving DecidableEq

def Socket.peer : Socket → Socket
  | .client => .upstream
  | .upstream => .client

/-- What the relay keeps for the bytes that go to one socket. -/
structure Direction where
  /-- `to_client` and `to_upstream`. -/
  pending : Bytes
  /-- The read flag of the other socket. -/
  readOpen : Bool
  writeShutdown : Bool
  deriving DecidableEq

/-- A part of the body of the event loop. -/
inductive Op where
  | read (socket : Socket)
  | write (socket : Socket)
  deriving DecidableEq

structure Tunnel where
  toClient : Direction
  toUpstream : Direction
  transferred : Nat
  started : ℚ
  lastActivity : ℚ
  /-- What is left of the events of this turn. -/
  todo : List Op
  returned : Bool
  deriving DecidableEq

namespace Tunnel

def toward (t : Tunnel) : Socket → Direction
  | .client => t.toClient
  | .upstream => t.toUpstream

def setToward (t : Tunnel) (socket : Socket) (direction : Direction) : Tunnel :=
  match socket with
  | .client => { t with toClient := direction }
  | .upstream => { t with toUpstream := direction }

/-- `interests`: reading and writing. -/
def interests (t : Tunnel) (socket : Socket) : Bool × Bool :=
  (decide ((t.toward socket.peer).readOpen = true ∧
      (t.toward socket.peer).pending.length < maxDirectionBufferBytes ∧
      t.transferred < maxTunnelBytes),
    decide ((t.toward socket).pending ≠ [] ∧ (t.toward socket).writeShutdown = false))

end Tunnel

/-- A key and mask that `select` returns. -/
structure Ready where
  socket : Socket
  read : Bool
  write : Bool

/-- A selector names a socket once and only what it was registered for. -/
def Selected (t : Tunnel) (events : List Ready) : Prop :=
  (events.map Ready.socket).Nodup ∧ ∀ event ∈ events,
    (event.read = true → (t.interests event.socket).1 = true) ∧
      (event.write = true → (t.interests event.socket).2 = true)

instance decidableSelected (t : Tunnel) (events : List Ready) : Decidable (Selected t events) :=
  inferInstanceAs (Decidable (_ ∧ _))

def Ready.ops (event : Ready) : List Op :=
  (if event.read then [.read event.socket] else []) ++
    (if event.write then [.write event.socket] else [])

/-- What passes on the sockets. -/
inductive Effect where
  | received (socket : Socket) (chunk : Bytes)
  | endOfStream (socket : Socket)
  | sent (socket : Socket) (bytes : Bytes)
  | shutdown (socket : Socket)
  deriving DecidableEq

inductive Received where
  | blocked
  | failed
  | chunk (bytes : Bytes)

inductive Sent where
  | blocked
  | failed
  | count (sent : Nat)

/-- What the clock and the kernel answer; an answer is left unused where the
relay makes no call. -/
inductive Answer where
  | turn (now : ℚ) (events : List Ready)
  | received (answer : Received) (now : ℚ)
  | sent (answer : Sent) (now : ℚ)

/-- The start of `relay_tunnel`. -/
def startTunnel (clientPreface : Bytes) (now : ℚ) : Result Tunnel := do
  ensure (clientPreface.length ≤ maxDirectionBufferBytes) "TLS ClientHello exceeds relay buffer"
  pure
    { toClient := { pending := [], readOpen := true, writeShutdown := false }
      toUpstream := { pending := clientPreface, readOpen := true, writeShutdown := false }
      transferred := clientPreface.length
      started := now
      lastActivity := now
      todo := []
      returned := false }

namespace Tunnel

/-- The first four checks of a turn. -/
def isOver (t : Tunnel) (now : ℚ) : Bool :=
  now - t.started ≥ maxTunnelLifetimeSeconds || now - t.lastActivity ≥ idleTimeoutSeconds ||
    (t.transferred ≥ maxTunnelBytes && t.toClient.pending = [] && t.toUpstream.pending = []) ||
    (!t.toUpstream.readOpen && !t.toClient.readOpen && t.toClient.pending = [] &&
      t.toUpstream.pending = [])

/-- The half-close of one socket, whether or not the kernel takes it. -/
def halfClose (t : Tunnel) (socket : Socket) : Tunnel × List Effect :=
  let direction := t.toward socket
  if direction.readOpen = false ∧ direction.pending = [] ∧ direction.writeShutdown = false then
    (t.setToward socket { direction with writeShutdown := true }, [.shutdown socket])
  else (t, [])

/-- A turn up to the events it handles. -/
def turn (t : Tunnel) (now : ℚ) (events : List Ready) : Option (Tunnel × List Effect) :=
  if t.isOver now then some ({ t with returned := true }, [])
  else
    let (t, upstreamClosed) := t.halfClose .upstream
    let (t, clientClosed) := t.halfClose .client
    let effects := upstreamClosed ++ clientClosed
    if t.interests .client = (false, false) ∧ t.interests .upstream = (false, false) then
      some ({ t with returned := true }, effects)
    else if Selected t events then
      if events = [] then some ({ t with returned := true }, effects)
      else some ({ t with todo := events.flatMap Ready.ops }, effects)
    else none

/-- `read_into` from a socket; the kernel never returns more than was asked for. -/
def readInto (t : Tunnel) (socket : Socket) (answer : Received) (now : ℚ) :
    Option (Tunnel × List Effect) :=
  let direction := t.toward socket.peer
  let capacity := min relayChunkBytes
    (min (maxDirectionBufferBytes - direction.pending.length) (maxTunnelBytes - t.transferred))
  if capacity = 0 then some (t.setToward socket.peer { direction with readOpen := false }, [])
  else
    match answer with
    | .blocked => some (t, [])
    | .failed => some ({ t with returned := true }, [])
    | .chunk [] =>
      some ({ t.setToward socket.peer { direction with readOpen := false } with
        lastActivity := now }, [.endOfStream socket])
    | .chunk bytes =>
      if bytes.length ≤ capacity then
        some ({ t.setToward socket.peer { direction with pending := direction.pending ++ bytes } with
          transferred := t.transferred + bytes.length, lastActivity := now },
          [.received socket bytes])
      else none

/-- `write_from` to a socket; the kernel never takes more than it is given. -/
def writeFrom (t : Tunnel) (socket : Socket) (answer : Sent) (now : ℚ) :
    Option (Tunnel × List Effect) :=
  let direction := t.toward socket
  match answer with
  | .blocked => some (t, [])
  | .failed => some ({ t with returned := true }, [])
  | .count 0 => some (t, [])
  | .count sent =>
    if sent ≤ direction.pending.length then
      some ({ t.setToward socket { direction with pending := direction.pending.drop sent } with
        lastActivity := now }, [.sent socket (direction.pending.take sent)])
    else none

/-- One step of `relay_tunnel` and what it does on the sockets. -/
def step (t : Tunnel) (answer : Answer) : Option (Tunnel × List Effect) :=
  if t.returned then none
  else
    match t.todo, answer with
    | [], .turn now events => t.turn now events
    | .read socket :: todo, .received answer now =>
      let t := { t with todo := todo }
      if (t.toward socket.peer).readOpen then t.readInto socket answer now else some (t, [])
    | .write socket :: todo, .sent answer now =>
      let t := { t with todo := todo }
      if (t.toward socket).pending ≠ [] then t.writeFrom socket answer now else some (t, [])
    | _, _ => none

end Tunnel

/-! ## The bytes on the wire -/

/-- What was read from a socket. -/
def receivedFrom (socket : Socket) (wire : List Effect) : Bytes :=
  wire.flatMap (fun
    | .received source chunk => if source = socket then chunk else []
    | _ => [])

/-- What was sent to a socket. -/
def sentTo (socket : Socket) (wire : List Effect) : Bytes :=
  wire.flatMap (fun
    | .sent target bytes => if target = socket then bytes else []
    | _ => [])

/-- The ClientHello that was read before the tunnel starts. -/
def prefaceTo (clientPreface : Bytes) : Socket → Bytes
  | .client => []
  | .upstream => clientPreface

/-- All that was read from both sides, the preface included. -/
def totalRead (clientPreface : Bytes) (wire : List Effect) : Nat :=
  clientPreface.length + (receivedFrom .client wire).length + (receivedFrom .upstream wire).length

/-- The other side has ended, or the tunnel is full, and all of it is sent. -/
def Drained (clientPreface : Bytes) (socket : Socket) (wire : List Effect) : Prop :=
  (.endOfStream socket.peer ∈ wire ∨ maxTunnelBytes ≤ totalRead clientPreface wire) ∧
    sentTo socket wire = prefaceTo clientPreface socket ++ receivedFrom socket.peer wire

/-- A tunnel together with what passed through it. -/
structure Connection where
  tunnel : Tunnel
  wire : List Effect

def relaySystem (clientPreface : Bytes) : System Connection Answer :=
  { init := fun c => c.wire = [] ∧ ∃ now, startTunnel clientPreface now = .ok c.tunnel
    step := fun c answer c' => ∃ effects,
      c.tunnel.step answer = some (c'.tunnel, effects) ∧ c'.wire = c.wire ++ effects }

structure Carries (clientPreface : Bytes) (wire : List Effect) (t : Tunnel) : Prop where
  flow : ∀ socket, sentTo socket wire ++ (t.toward socket).pending =
    prefaceTo clientPreface socket ++ receivedFrom socket.peer wire
  bounded : ∀ socket, (t.toward socket).pending.length ≤ maxDirectionBufferBytes
  total : t.transferred = totalRead clientPreface wire
  limit : t.transferred ≤ maxTunnelBytes
  closed : ∀ socket, (t.toward socket).readOpen = false →
    .endOfStream socket.peer ∈ wire ∨ maxTunnelBytes ≤ t.transferred
  room : ∀ socket, .read socket ∈ t.todo →
    (t.toward socket.peer).pending.length < maxDirectionBufferBytes
  once : t.todo.Nodup
  halfClosed : ∀ socket before after, wire = before ++ .shutdown socket :: after →
    Drained clientPreface socket before

@[simp] theorem receivedFrom_append (socket : Socket) (wire effects : List Effect) :
    receivedFrom socket (wire ++ effects) = receivedFrom socket wire ++ receivedFrom socket effects :=
  List.flatMap_append

@[simp] theorem sentTo_append (socket : Socket) (wire effects : List Effect) :
    sentTo socket (wire ++ effects) = sentTo socket wire ++ sentTo socket effects :=
  List.flatMap_append

namespace Tunnel

theorem toward_congr {t t' : Tunnel} (hclient : t'.toClient = t.toClient)
    (hupstream : t'.toUpstream = t.toUpstream) (socket : Socket) :
    t'.toward socket = t.toward socket := by
  cases socket
  · exact hclient
  · exact hupstream

@[simp] theorem toward_setToward (t : Tunnel) (socket : Socket) (direction : Direction) :
    (t.setToward socket direction).toward socket = direction := by
  cases socket <;> rfl

@[simp] theorem toward_setToward_peer (t : Tunnel) (socket : Socket) (direction : Direction) :
    (t.setToward socket direction).toward socket.peer = t.toward socket.peer := by
  cases socket <;> rfl

@[simp] theorem transferred_setToward (t : Tunnel) (socket : Socket) (direction : Direction) :
    (t.setToward socket direction).transferred = t.transferred := by
  cases socket <;> rfl

@[simp] theorem todo_setToward (t : Tunnel) (socket : Socket) (direction : Direction) :
    (t.setToward socket direction).todo = t.todo := by
  cases socket <;> rfl

end Tunnel

@[simp] theorem Socket.peer_peer (socket : Socket) : socket.peer.peer = socket := by
  cases socket <;> rfl

theorem Socket.eq_or_eq_peer (socket other : Socket) : other = socket ∨ other = socket.peer := by
  cases socket <;> cases other <;> simp [peer]

theorem Socket.peer_ne (socket : Socket) : socket.peer ≠ socket := by
  cases socket <;> simp [peer]

/-! ## What every step keeps -/

theorem mem_ops {event : Ready} {op : Op} : op ∈ event.ops ↔
    op = .read event.socket ∧ event.read = true ∨ op = .write event.socket ∧ event.write = true := by
  unfold Ready.ops
  split_ifs <;> simp_all

theorem nodup_ops {events : List Ready} (h : (events.map Ready.socket).Nodup) :
    (events.flatMap Ready.ops).Nodup := by
  rw [List.nodup_flatMap]
  constructor
  · intro event _
    unfold Ready.ops
    split_ifs <;> simp
  · refine (List.pairwise_map.mp h).imp ?_
    intro event other hne op hevent hother
    rcases mem_ops.mp hevent with ⟨rfl, _⟩ | ⟨rfl, _⟩
    · rcases mem_ops.mp hother with ⟨hop, _⟩ | ⟨hop, _⟩
      · exact hne (Op.read.inj hop)
      · cases hop
    · rcases mem_ops.mp hother with ⟨hop, _⟩ | ⟨hop, _⟩
      · cases hop
      · exact hne (Op.write.inj hop)

namespace Carries

variable {clientPreface : Bytes} {wire : List Effect} {t : Tunnel}

/-- The part that a `returned` flag, a clock and the rest of a turn do not touch. -/
theorem congr {t' : Tunnel} (h : Carries clientPreface wire t)
    (htoward : ∀ socket, t'.toward socket = t.toward socket)
    (htransferred : t'.transferred = t.transferred) (htodo : t'.todo <:+ t.todo) :
    Carries clientPreface wire t' where
  flow socket := by rw [htoward]; exact h.flow socket
  bounded socket := by rw [htoward]; exact h.bounded socket
  total := by rw [htransferred]; exact h.total
  limit := by rw [htransferred]; exact h.limit
  closed socket := by rw [htoward, htransferred]; exact h.closed socket
  room socket hmem := by rw [htoward]; exact h.room socket (htodo.subset hmem)
  once := h.once.sublist htodo.sublist
  halfClosed := h.halfClosed

/-- An effect after the last one is new or leaves the half-closes as they were. -/
theorem halfClosed_concat (h : Carries clientPreface wire t) {effect : Effect}
    (heffect : ∀ socket, effect = .shutdown socket → Drained clientPreface socket wire)
    {socket : Socket} {before after : List Effect}
    (hwire : wire ++ [effect] = before ++ .shutdown socket :: after) :
    Drained clientPreface socket before := by
  rcases List.eq_nil_or_concat after with rfl | ⟨rest, last, rfl⟩
  · obtain ⟨rfl, hlast⟩ := List.append_inj' hwire rfl
    exact heffect socket (List.cons.inj hlast).1
  · rw [List.concat_eq_append, ← List.cons_append, ← List.append_assoc] at hwire
    exact h.halfClosed socket before rest (List.append_inj' hwire rfl).1

theorem update (h : Carries clientPreface wire t) {t' : Tunnel} {socket : Socket}
    {effects : List Effect}
    (hpeer : t'.toward socket.peer = t.toward socket.peer)
    (hflow : sentTo socket effects ++ (t'.toward socket).pending =
      (t.toward socket).pending ++ receivedFrom socket.peer effects)
    (hquiet : sentTo socket.peer effects = [] ∧ receivedFrom socket effects = [])
    (hbounded : (t'.toward socket).pending.length ≤ maxDirectionBufferBytes)
    (htransferred : t'.transferred = t.transferred + (receivedFrom socket.peer effects).length)
    (hlimit : t'.transferred ≤ maxTunnelBytes)
    (hclosed : (t'.toward socket).readOpen = false → (t.toward socket).readOpen = false ∨
      .endOfStream socket.peer ∈ effects ∨ maxTunnelBytes ≤ t'.transferred)
    (htodo : t'.todo = t.todo)
    (hroom : .read socket.peer ∈ t.todo →
      (t'.toward socket).pending.length < maxDirectionBufferBytes)
    (hhalf : ∀ target before after, wire ++ effects = before ++ .shutdown target :: after →
      Drained clientPreface target before) :
    Carries clientPreface (wire ++ effects) t' where
  flow target := by
    rcases socket.eq_or_eq_peer target with rfl | rfl
    · rw [sentTo_append, receivedFrom_append, List.append_assoc, hflow, ← List.append_assoc, h.flow,
        List.append_assoc]
    · rw [sentTo_append, receivedFrom_append, Socket.peer_peer, hquiet.1, hquiet.2, hpeer]
      simpa using h.flow socket.peer
  bounded target := by
    rcases socket.eq_or_eq_peer target with rfl | rfl
    · exact hbounded
    · rw [hpeer]
      exact h.bounded socket.peer
  total := by
    have htotal := h.total
    rw [htransferred]
    cases socket <;>
      simp only [totalRead, receivedFrom_append, List.length_append, Socket.peer] at htotal hquiet ⊢
    · rw [hquiet.2, List.length_nil]
      omega
    · rw [hquiet.2, List.length_nil]
      omega
  limit := hlimit
  closed target hopen := by
    have hmono : t.transferred ≤ t'.transferred := by omega
    have hold : (t.toward target).readOpen = false →
        .endOfStream target.peer ∈ wire ++ effects ∨ maxTunnelBytes ≤ t'.transferred := by
      intro hopen
      exact (h.closed target hopen).imp (List.mem_append_left _) (le_trans · hmono)
    rcases socket.eq_or_eq_peer target with rfl | rfl
    · rcases hclosed hopen with hopen | heof | hfull
      · exact hold hopen
      · exact .inl (List.mem_append_right _ heof)
      · exact .inr hfull
    · rw [hpeer] at hopen
      exact hold hopen
  room target hmem := by
    rw [htodo] at hmem
    rcases socket.eq_or_eq_peer target with rfl | rfl
    · rw [hpeer]
      exact h.room target hmem
    · rw [Socket.peer_peer]
      exact hroom hmem
  once := htodo ▸ h.once
  halfClosed := hhalf

theorem halfClosed_of_nil (h : Carries clientPreface wire t) (target : Socket)
    (before after : List Effect) (hwire : wire ++ [] = before ++ .shutdown target :: after) :
    Drained clientPreface target before :=
  h.halfClosed target before after (List.append_nil wire ▸ hwire)

theorem halfClose (h : Carries clientPreface wire t) (socket : Socket) :
    Carries clientPreface (wire ++ (t.halfClose socket).2) (t.halfClose socket).1 := by
  dsimp only [Tunnel.halfClose]
  split_ifs with hdrained
  · obtain ⟨hopen, hpending, _⟩ := hdrained
    have hall := h.flow socket
    rw [hpending, List.append_nil] at hall
    have hended := h.closed socket hopen
    rw [h.total] at hended
    refine @update _ _ _ h _ socket _ ?_ ?_ ?_ ?_ ?_ ?_ ?_ ?_ ?_ ?_
    · exact t.toward_setToward_peer socket _
    · simp [sentTo, receivedFrom]
    · simp [sentTo, receivedFrom]
    · simpa using h.bounded socket
    · simp [receivedFrom]
    · simpa using h.limit
    · exact fun _ => .inl hopen
    · exact t.todo_setToward socket _
    · intro hmem
      simpa using h.room socket.peer hmem
    · intro target before after hwire
      refine h.halfClosed_concat ?_ hwire
      intro other hother
      cases hother
      exact ⟨hended, hall⟩
  · rw [List.append_nil]
    exact h

theorem readInto (h : Carries clientPreface wire t) {socket : Socket} {answer : Received} {now : ℚ}
    {t' : Tunnel} {effects : List Effect}
    (hroom : (t.toward socket.peer).pending.length < maxDirectionBufferBytes)
    (honce : .read socket ∉ t.todo)
    (hread : t.readInto socket answer now = some (t', effects)) :
    Carries clientPreface (wire ++ effects) t' := by
  dsimp only [Tunnel.readInto] at hread
  split_ifs at hread with hcapacity
  · obtain ⟨rfl, rfl⟩ := Prod.mk.inj (Option.some.inj hread)
    have hfull : maxTunnelBytes ≤ t.transferred := by
      have hchunk : 0 < relayChunkBytes := by decide
      omega
    refine @update _ _ _ h _ socket.peer _ ?_ ?_ ?_ ?_ ?_ ?_ ?_ ?_ ?_ ?_
    · exact t.toward_setToward_peer socket.peer _
    · simp [sentTo, receivedFrom]
    · simp [sentTo, receivedFrom]
    · simpa using h.bounded socket.peer
    · simp [receivedFrom]
    · simpa using h.limit
    · exact fun _ => .inr (.inr (by simpa using hfull))
    · exact t.todo_setToward socket.peer _
    · intro _
      simpa using hroom
    · exact h.halfClosed_of_nil
  · split at hread
    · obtain ⟨rfl, rfl⟩ := Prod.mk.inj (Option.some.inj hread)
      rw [List.append_nil]
      exact h
    · obtain ⟨rfl, rfl⟩ := Prod.mk.inj (Option.some.inj hread)
      rw [List.append_nil]
      exact h.congr (Tunnel.toward_congr rfl rfl) rfl List.suffix_rfl
    · obtain ⟨rfl, rfl⟩ := Prod.mk.inj (Option.some.inj hread)
      refine @update _ _ _ h _ socket.peer _ ?_ ?_ ?_ ?_ ?_ ?_ ?_ ?_ ?_ ?_
      · cases socket <;> rfl
      · cases socket <;> simp [sentTo, receivedFrom, Tunnel.toward, Tunnel.setToward, Socket.peer]
      · simp [sentTo, receivedFrom]
      · cases socket <;> exact h.bounded _
      · simp [receivedFrom]
      · simpa using h.limit
      · exact fun _ => .inr (.inl (by simp))
      · exact t.todo_setToward socket.peer _
      · exact fun hmem => absurd (socket.peer_peer ▸ hmem) honce
      · exact fun target before after =>
          h.halfClosed_concat (fun _ hshutdown => Effect.noConfusion hshutdown)
    · rename_i bytes hbytes
      split_ifs at hread with hcount
      obtain ⟨rfl, rfl⟩ := Prod.mk.inj (Option.some.inj hread)
      have hlimit := h.limit
      refine @update _ _ _ h _ socket.peer _ ?_ ?_ ?_ ?_ ?_ ?_ ?_ ?_ ?_ ?_
      · cases socket <;> rfl
      · cases socket <;> simp [sentTo, receivedFrom, Tunnel.toward, Tunnel.setToward, Socket.peer]
      · have hne := socket.peer_ne
        simp [sentTo, receivedFrom, hne.symm]
      · have hlength : (t.toward socket.peer).pending.length + bytes.length ≤
            maxDirectionBufferBytes := by omega
        cases socket <;> simpa [Tunnel.toward, Tunnel.setToward, Socket.peer] using hlength
      · simp [receivedFrom]
      · change t.transferred + bytes.length ≤ maxTunnelBytes
        omega
      · intro hopen
        refine .inl ?_
        cases socket <;> exact hopen
      · exact t.todo_setToward socket.peer _
      · exact fun hmem => absurd (socket.peer_peer ▸ hmem) honce
      · exact fun target before after =>
          h.halfClosed_concat (fun _ hshutdown => Effect.noConfusion hshutdown)

theorem writeFrom (h : Carries clientPreface wire t) {socket : Socket} {answer : Sent} {now : ℚ}
    {t' : Tunnel} {effects : List Effect}
    (hwrite : t.writeFrom socket answer now = some (t', effects)) :
    Carries clientPreface (wire ++ effects) t' := by
  have hnil : ∀ {t' : Tunnel}, Carries clientPreface wire t' →
      Carries clientPreface (wire ++ []) t' := by
    intro t' ht
    rwa [List.append_nil]
  dsimp only [Tunnel.writeFrom] at hwrite
  split at hwrite
  · obtain ⟨rfl, rfl⟩ := Prod.mk.inj (Option.some.inj hwrite)
    exact hnil h
  · obtain ⟨rfl, rfl⟩ := Prod.mk.inj (Option.some.inj hwrite)
    exact hnil (h.congr (Tunnel.toward_congr rfl rfl) rfl List.suffix_rfl)
  · obtain ⟨rfl, rfl⟩ := Prod.mk.inj (Option.some.inj hwrite)
    exact hnil h
  · rename_i sent hsent
    split_ifs at hwrite with hcount
    obtain ⟨rfl, rfl⟩ := Prod.mk.inj (Option.some.inj hwrite)
    have hshorter : ((t.toward socket).pending.drop sent).length ≤
        (t.toward socket).pending.length := by
      rw [List.length_drop]
      omega
    refine @update _ _ _ h _ socket _ ?_ ?_ ?_ ?_ ?_ ?_ ?_ ?_ ?_ ?_
    · cases socket <;> rfl
    · cases socket <;> simp [sentTo, receivedFrom, Tunnel.toward, Tunnel.setToward]
    · have hne := socket.peer_ne
      simp [sentTo, receivedFrom, hne.symm]
    · have hbounded := hshorter.trans (h.bounded socket)
      cases socket <;> exact hbounded
    · simp [receivedFrom]
    · simpa using h.limit
    · intro hopen
      refine .inl ?_
      cases socket <;> exact hopen
    · exact t.todo_setToward socket _
    · intro hmem
      have hroom := h.room socket.peer hmem
      rw [Socket.peer_peer] at hroom
      have hlength := hshorter.trans_lt hroom
      cases socket <;> exact hlength
    · exact fun target before after =>
        h.halfClosed_concat (fun _ hshutdown => Effect.noConfusion hshutdown)

theorem withEvents (h : Carries clientPreface wire t) {events : List Ready}
    (hselected : Selected t events) :
    Carries clientPreface wire { t with todo := events.flatMap Ready.ops } := by
  refine { h with room := ?_, once := nodup_ops hselected.1 }
  intro socket hmem
  obtain ⟨event, hevent, hop⟩ := List.mem_flatMap.mp hmem
  rcases mem_ops.mp hop with ⟨hread, hsocket⟩ | ⟨hread, hsocket⟩
  · obtain rfl := Op.read.inj hread
    have hinterest := (hselected.2 event hevent).1 hsocket
    simp only [Tunnel.interests, decide_eq_true_eq] at hinterest
    exact hinterest.2.1
  · cases hread

theorem turn (h : Carries clientPreface wire t) {now : ℚ} {events : List Ready} {t' : Tunnel}
    {effects : List Effect} (hturn : t.turn now events = some (t', effects)) :
    Carries clientPreface (wire ++ effects) t' := by
  have hreturned : ∀ {wire : List Effect} {t : Tunnel}, Carries clientPreface wire t →
      Carries clientPreface wire { t with returned := true } :=
    fun h => h.congr (Tunnel.toward_congr rfl rfl) rfl List.suffix_rfl
  have hclosed := (h.halfClose .upstream).halfClose .client
  rw [List.append_assoc] at hclosed
  dsimp only [Tunnel.turn] at hturn
  split_ifs at hturn with hover hidle hselected hevents
  · obtain ⟨rfl, rfl⟩ := Prod.mk.inj (Option.some.inj hturn)
    rw [List.append_nil]
    exact hreturned h
  · obtain ⟨rfl, rfl⟩ := Prod.mk.inj (Option.some.inj hturn)
    exact hreturned hclosed
  · obtain ⟨rfl, rfl⟩ := Prod.mk.inj (Option.some.inj hturn)
    exact hreturned hclosed
  · obtain ⟨rfl, rfl⟩ := Prod.mk.inj (Option.some.inj hturn)
    exact hclosed.withEvents hselected

theorem step (h : Carries clientPreface wire t) {answer : Answer} {t' : Tunnel}
    {effects : List Effect} (hstep : t.step answer = some (t', effects)) :
    Carries clientPreface (wire ++ effects) t' := by
  unfold Tunnel.step at hstep
  split_ifs at hstep
  split at hstep
  · exact h.turn hstep
  · rename_i socket todo answer now htodo
    have hrest : Carries clientPreface wire { t with todo := todo } :=
      h.congr (Tunnel.toward_congr rfl rfl) rfl (htodo ▸ List.suffix_cons _ _)
    have hroom := h.room socket (htodo ▸ List.mem_cons_self)
    have honce : .read socket ∉ todo := (List.nodup_cons.mp (htodo ▸ h.once)).1
    dsimp only at hstep
    split_ifs at hstep
    · refine hrest.readInto ?_ honce hstep
      cases socket <;> exact hroom
    · obtain ⟨rfl, rfl⟩ := Prod.mk.inj (Option.some.inj hstep)
      rw [List.append_nil]
      exact hrest
  · rename_i socket todo answer now htodo
    have hrest : Carries clientPreface wire { t with todo := todo } :=
      h.congr (Tunnel.toward_congr rfl rfl) rfl (htodo ▸ List.suffix_cons _ _)
    dsimp only at hstep
    split_ifs at hstep
    · exact hrest.writeFrom hstep
    · obtain ⟨rfl, rfl⟩ := Prod.mk.inj (Option.some.inj hstep)
      rw [List.append_nil]
      exact hrest
  · cases hstep

theorem start {now : ℚ} (hstart : startTunnel clientPreface now = .ok t) :
    Carries clientPreface [] t := by
  simp only [startTunnel, Result.bind_ok_iff, Result.exists_unit_iff, Result.ensure_ok_iff,
    Result.pure_ok_iff] at hstart
  obtain ⟨hlength, rfl⟩ := hstart
  have hfits : maxDirectionBufferBytes ≤ maxTunnelBytes := by decide
  refine
    { flow := fun socket => ?_, bounded := fun socket => ?_, total := rfl
      limit := hlength.trans hfits, closed := fun socket hopen => ?_
      room := fun socket hmem => ?_, once := List.nodup_nil
      halfClosed := fun socket before after hwire => ?_ }
  · cases socket <;> simp [sentTo, receivedFrom, prefaceTo, Tunnel.toward]
  · cases socket
    · exact Nat.zero_le _
    · exact hlength
  · cases socket <;> cases hopen
  · cases hmem
  · simp at hwire

end Carries

/-- The relay is a lossless ordered pipe with bounded buffers, and it half-closes
a direction only when that is drained. -/
theorem relay_lossless {clientPreface : Bytes} {history : List (Connection × Answer)}
    {c : Connection} (hrun : (relaySystem clientPreface).Run history c) :
    sentTo .upstream c.wire <+: clientPreface ++ receivedFrom .client c.wire ∧
      sentTo .client c.wire <+: receivedFrom .upstream c.wire ∧
      (sentTo .upstream c.wire ++ c.tunnel.toUpstream.pending =
          clientPreface ++ receivedFrom .client c.wire ∧
        sentTo .client c.wire ++ c.tunnel.toClient.pending = receivedFrom .upstream c.wire) ∧
      (c.tunnel.toUpstream.pending.length ≤ maxDirectionBufferBytes ∧
        c.tunnel.toClient.pending.length ≤ maxDirectionBufferBytes) ∧
      totalRead clientPreface c.wire ≤ maxTunnelBytes ∧
      ∀ socket before after, c.wire = before ++ .shutdown socket :: after →
        Drained clientPreface socket before := by
  have hcarries : Carries clientPreface c.wire c.tunnel := by
    refine hrun.invariant (I := fun c => Carries clientPreface c.wire c.tunnel) ?_ ?_
    · rintro c ⟨hwire, now, hstart⟩
      rw [hwire]
      exact .start hstart
    · rintro c answer c' h ⟨effects, hstep, hwire⟩
      rw [hwire]
      exact h.step hstep
  have hup := hcarries.flow .upstream
  have hdown := hcarries.flow .client
  exact ⟨⟨_, hup⟩, ⟨_, hdown⟩, ⟨hup, hdown⟩, ⟨hcarries.bounded .upstream, hcarries.bounded .client⟩,
    hcarries.total ▸ hcarries.limit, hcarries.halfClosed⟩

/-- A tunnel that has passed its preface on and read one byte from the client. -/
def sampleTunnel (todo : List Op) (pending : Bytes) (transferred : Nat) : Tunnel :=
  { toClient := { pending := [], readOpen := true, writeShutdown := false }
    toUpstream := { pending := pending, readOpen := true, writeShutdown := false }
    transferred := transferred, started := 0, lastActivity := 0, todo := todo, returned := false }

theorem relay_sample_run :
    ∃ history, (relaySystem [22]).Run history
      { tunnel := sampleTunnel [] [3] 2
        wire := [.received .client [3], .sent .upstream [22]] } := by
  have hstart : (relaySystem [22]).Run [] { tunnel := sampleTunnel [] [22] 1, wire := [] } :=
    .start ⟨rfl, 0, by rfl⟩
  have hturn : (relaySystem [22]).Run _
      { tunnel := sampleTunnel [.read .client, .write .upstream] [22] 1, wire := [] } :=
    hstart.next (a := .turn 0 [{ socket := .client, read := true, write := false },
      { socket := .upstream, read := false, write := true }]) ⟨[], by decide +kernel, rfl⟩
  have hread : (relaySystem [22]).Run _
      { tunnel := sampleTunnel [.write .upstream] [22, 3] 2, wire := [.received .client [3]] } :=
    hturn.next (a := .received (.chunk [3]) 0) ⟨[.received .client [3]], by rfl, rfl⟩
  have hwrite : (relaySystem [22]).Run _
      { tunnel := sampleTunnel [] [3] 2
        wire := [.received .client [3], .sent .upstream [22]] } :=
    hread.next (a := .sent (.count 1) 0) ⟨[.sent .upstream [22]], by rfl, rfl⟩
  exact ⟨_, hwrite⟩

theorem relay_lossless_sample :
    ∃ history, (relaySystem [22]).Run history
        { tunnel := sampleTunnel [] [3] 2
          wire := [.received .client [3], .sent .upstream [22]] } ∧
      ([22] : Bytes) <+: [22] ++ [3] := by
  obtain ⟨history, hrun⟩ := relay_sample_run
  exact ⟨history, hrun, (relay_lossless hrun).1⟩

end A3sBench.ConnectProxy
