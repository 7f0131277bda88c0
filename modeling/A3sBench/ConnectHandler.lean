import A3sBench.ClientHello
import A3sBench.Library.Occurrence

/-!
# Connections of the CONNECT proxy

`ConnectProxyHandler.handle` up to the start of the tunnel, on a client that
sends any bytes and whose reads find any number of them.
-/

namespace A3sBench.ConnectProxy

open Library

def maxTlsRecordBytes : Nat := 2 ^ 14 + 256

def maxClientHelloBytes : Nat := 64 * 1024

/-- What `handle` catches. -/
inductive Refusal where
  /-- `ProxyRequestError` -/
  | request (message : String)
  /-- `OSError` and `TimeoutError` -/
  | io (message : String)
  deriving DecidableEq

def refuse {α : Type} : Result α → Except Refusal α
  | .ok value => .ok value
  | .error message => .error (.request message)

def timedOut : Refusal := .io "timed out"

/-- The bytes a client sends before it closes, and how many of them each read finds; none in time
where that is zero. -/
structure Client where
  incoming : Bytes
  pace : List Nat

/-- A loop that reads until it has what it wants. -/
structure Reading where
  done : Bytes → Bool
  limit : Bytes → Nat
  closed : String
  check : Bytes → Result Unit

/-- The loop, one `recv` at a time. -/
def receive (loop : Reading) (data incoming : Bytes) : List Nat → Except Refusal (Bytes × Client)
  | [] => if loop.done data then .ok (data, { incoming := incoming, pace := [] }) else .error timedOut
  | found :: pace =>
    if loop.done data then .ok (data, { incoming := incoming, pace := found :: pace })
    else if found = 0 then .error timedOut
    else
      let count := min (loop.limit data) found
      let chunk := incoming.take count
      if chunk = [] then .error (.request loop.closed)
      else do
        refuse (loop.check (data ++ chunk))
        receive loop (data ++ chunk) (incoming.drop count) pace

def headerLoop : Reading :=
  { done := fun data => (find headerEnd data).isSome
    limit := fun data => min 4096 (maxHeaderBytes + 1 - data.length)
    closed := "connection closed before request header"
    check := fun data => ensure (data.length ≤ maxHeaderBytes) "request header is too large" }

def readHeader (client : Client) : Except Refusal (Bytes × Client) := do
  let (data, client) ← receive headerLoop [] client.incoming client.pace
  refuse (ensure ((find headerEnd data).map (· + 4) = some data.length)
    "tunnel bytes before CONNECT acceptance are forbidden")
  pure (data, client)

def closedDuringHello : String := "connection closed during TLS ClientHello"

def exactLoop (size : Nat) : Reading :=
  { done := fun data => size ≤ data.length
    limit := fun data => size - data.length
    closed := closedDuringHello
    check := fun _ => .ok () }

def readExact (size : Nat) (client : Client) : Except Refusal (Bytes × Client) :=
  receive (exactLoop size) [] client.incoming client.pace

/-- `expected_handshake_size` after a record. -/
def nextExpected (handshake : Bytes) (expected : Option Nat) : Result (Option Nat) :=
  if 4 ≤ handshake.length ∧ expected = none then do
    ensure (handshake.head? = some 1) "first TLS handshake is not ClientHello"
    let size := 4 + fromBytes ((handshake.drop 1).take 3)
    ensure (size ≤ maxClientHelloBytes) "TLS ClientHello is too large"
    pure (some size)
  else pure expected

/-- What the loop checks of the header of a record. -/
def IsRecordHeader (recordHeader : Bytes) : Prop :=
  recordHeader[0]? = some 22 ∧ recordHeader[1]? = some 3 ∧
    recordHeader[2]?.any (fun minor => 1 ≤ minor ∧ minor < 5) = true ∧
    1 ≤ fromBytes ((recordHeader.drop 3).take 2) ∧
    fromBytes ((recordHeader.drop 3).take 2) ≤ maxTlsRecordBytes

instance decidableIsRecordHeader (recordHeader : Bytes) : Decidable (IsRecordHeader recordHeader) :=
  inferInstanceAs (Decidable (_ ∧ _))

/-- The loop over the records; each takes a read at least, so without fuel nothing is left to
read. It returns all that was read, and the body of the message. -/
def readRecords : Nat → Bytes → Bytes → Option Nat → Client →
    Except Refusal (Bytes × Bytes × Client)
  | 0, _, _, _, _ => .error timedOut
  | fuel + 1, raw, handshake, expected, client =>
    match expected.filter (· ≤ handshake.length) with
    | some size => .ok (raw, (handshake.drop 4).take (size - 4), client)
    | none => do
      let (recordHeader, client) ← readExact 5 client
      let raw := raw ++ recordHeader
      let recordSize := fromBytes ((recordHeader.drop 3).take 2)
      refuse (ensure (IsRecordHeader recordHeader)
        "first TLS record is not a valid handshake")
      refuse (ensure (raw.length + recordSize ≤ maxClientHelloBytes) "TLS ClientHello is too large")
      let (payload, client) ← readExact recordSize client
      let handshake := handshake ++ payload
      let expected ← refuse (nextExpected handshake expected)
      readRecords fuel (raw ++ payload) handshake expected client

def checkServerName (body : Bytes) (expectedHost : List Char) : Result Unit := do
  let serverName ← clientHelloSni body
  ensure (serverName = expectedHost) "TLS SNI does not match CONNECT authority"

def readAuthorizedClientHello (client : Client) (expectedHost : List Char) :
    Except Refusal (Bytes × Client) := do
  let (raw, body, client) ← readRecords (client.pace.length + 1) [] [] none client
  refuse (checkServerName body expectedHost)
  pure (raw, client)

inductive Reply where
  /-- 200 -/
  | established
  /-- 403 -/
  | forbidden
  /-- 502 -/
  | badGateway
  deriving DecidableEq

/-- The proxy, and how the rest of the world answers it. -/
structure Proxy where
  policy : Policy
  /-- Whether the client takes the first reply. -/
  sendAll : Bool
  connectUpstream : List Char → Nat → Except Refusal Unit

/-- What `handle` did: its replies, and the tunnel it started to a host with a preface. -/
structure Handled where
  replies : List Reply
  tunnel : Option (List Char × Bytes)
  deriving DecidableEq

def acceptRequest (policy : Policy) (client : Client) :
    Except Refusal (List Char × Nat × Client) := do
  let (header, client) ← readHeader client
  let (host, port) ← refuse (parseConnectRequest policy header)
  pure (host, port, client)

def handle (proxy : Proxy) (client : Client) : Handled :=
  match acceptRequest proxy.policy client with
  | .error (.request _) => { replies := [.forbidden], tunnel := none }
  | .error (.io _) => { replies := [.badGateway], tunnel := none }
  | .ok (host, port, client) =>
    if proxy.sendAll then
      match readAuthorizedClientHello client host with
      | .error _ => { replies := [.established], tunnel := none }
      | .ok (clientHello, _) =>
        match proxy.connectUpstream host port with
        | .error _ => { replies := [.established], tunnel := none }
        | .ok _ => { replies := [.established], tunnel := some (host, clientHello) }
    else { replies := [.badGateway], tunnel := none }

/-! ## Reads -/

variable {α β : Type}

@[simp] theorem refuse_ok_iff {x : Result α} {a : α} : refuse x = .ok a ↔ x = .ok a := by
  cases x <;> simp [refuse]

theorem Refusal.bind_ok_iff {x : Except Refusal α} {f : α → Except Refusal β} {b : β} :
    (x >>= f) = .ok b ↔ ∃ a, x = .ok a ∧ f a = .ok b := by
  cases x <;> simp [bind, Except.bind]

/-- A loop takes its data off the front of what comes in. -/
theorem receive_ok {loop : Reading} {pace : List Nat} {data incoming data' : Bytes}
    {client : Client} (h : receive loop data incoming pace = .ok (data', client)) :
    data ++ incoming = data' ++ client.incoming ∧ loop.done data' = true := by
  induction pace generalizing data incoming with
  | nil =>
    rw [receive] at h
    split_ifs at h with hdone
    obtain ⟨rfl, rfl⟩ := Prod.mk.inj (Except.ok.inj h)
    exact ⟨rfl, hdone⟩
  | cons found pace ih =>
    rw [receive] at h
    dsimp only at h
    split_ifs at h with hdone
    · obtain ⟨rfl, rfl⟩ := Prod.mk.inj (Except.ok.inj h)
      exact ⟨rfl, hdone⟩
    · obtain ⟨_, -, h⟩ := Refusal.bind_ok_iff.mp h
      obtain ⟨hsplit, hdone'⟩ := ih h
      rw [List.append_assoc, List.take_append_drop] at hsplit
      exact ⟨hsplit, hdone'⟩

theorem readHeader_ok {client client' : Client} {header : Bytes}
    (h : readHeader client = .ok (header, client')) :
    client.incoming = header ++ client'.incoming ∧
      (find headerEnd header).map (· + 4) = some header.length := by
  simp only [readHeader, Refusal.bind_ok_iff, refuse_ok_iff, Result.ensure_ok_iff, Prod.exists] at h
  obtain ⟨data, rest, hreceive, _, hend, h⟩ := h
  obtain ⟨rfl, rfl⟩ := Prod.mk.inj (Except.ok.inj h)
  exact ⟨(receive_ok hreceive).1, hend⟩

/-- Every read finds something in time, and there are enough of them. -/
def Client.Unhurried (client : Client) : Prop :=
  (∀ found ∈ client.pace, 0 < found) ∧ client.incoming.length < client.pace.length

/-- What reading a number of bytes after those at hand comes to. -/
inductive Reads (client : Client) (count : Nat) (data : Bytes) :
    Except Refusal (Bytes × Client) → Prop
  | late : ¬ client.Unhurried → Reads client count data (.error timedOut)
  | closed : client.incoming.length < count →
      Reads client count data (.error (.request closedDuringHello))
  | read (client' : Client) : count ≤ client.incoming.length →
      client'.incoming = client.incoming.drop count → (client.Unhurried → client'.Unhurried) →
      client'.pace.length + (if count = 0 then 0 else 1) ≤ client.pace.length →
      Reads client count data (.ok (data ++ client.incoming.take count, client'))

theorem Reads.here {client : Client} {data : Bytes} : Reads client 0 data (.ok (data, client)) := by
  have h : Reads client 0 data (.ok (data ++ client.incoming.take 0, client)) :=
    .read client (Nat.zero_le _) rfl id le_rfl
  rwa [List.take_zero, List.append_nil] at h

/-- A `recv` that finds some of the bytes. -/
theorem Reads.step {incoming data : Bytes} {found count k : Nat} {pace : List Nat}
    {result : Except Refusal (Bytes × Client)} (hk : 0 < k) (hcount : k ≤ count)
    (hincoming : k ≤ incoming.length)
    (h : Reads { incoming := incoming.drop k, pace := pace } (count - k) (data ++ incoming.take k)
      result) : Reads { incoming := incoming, pace := found :: pace } count data result := by
  have hunhurried : Client.Unhurried { incoming := incoming, pace := found :: pace } →
      Client.Unhurried { incoming := incoming.drop k, pace := pace } := by
    rintro ⟨hall, hlength⟩
    refine ⟨fun n hn => hall n (List.mem_cons_of_mem _ hn), ?_⟩
    simp only [List.length_cons, List.length_drop] at hlength ⊢
    omega
  cases h with
  | late hlate => exact .late fun h => hlate (hunhurried h)
  | closed hshort =>
    rw [List.length_drop] at hshort
    have hless : incoming.length < count := by omega
    exact .closed hless
  | read client' henough hrest hpace hless =>
    rw [List.length_drop] at henough
    have hsum : k + (count - k) = count := by omega
    have htake : data ++ incoming.take k ++ (incoming.drop k).take (count - k) =
        data ++ incoming.take count := by
      rw [List.append_assoc, ← List.take_add, hsum]
    have hread : Reads { incoming := incoming, pace := found :: pace } count data
        (.ok (data ++ incoming.take count, client')) := by
      refine .read client' (by dsimp only; omega) ?_ (fun h => hpace (hunhurried h)) ?_
      · rw [hrest, List.drop_drop, hsum]
      · have hle : client'.pace.length ≤ pace.length := (Nat.le_add_right _ _).trans hless
        rw [if_neg (by omega), List.length_cons]
        exact Nat.succ_le_succ hle
    rwa [← htake] at hread

theorem receive_of_done {loop : Reading} {data incoming : Bytes} {pace : List Nat}
    (h : loop.done data = true) :
    receive loop data incoming pace = .ok (data, { incoming := incoming, pace := pace }) := by
  cases pace with
  | nil => rw [receive, if_pos h]
  | cons found pace => rw [receive, if_pos h]

theorem receive_reads {size : Nat} {pace : List Nat} {data incoming : Bytes}
    (hdata : data.length ≤ size) : Reads { incoming := incoming, pace := pace }
      (size - data.length) data (receive (exactLoop size) data incoming pace) := by
  have hdone : ∀ {pace : List Nat}, size ≤ data.length → Reads { incoming := incoming, pace := pace }
      (size - data.length) data (receive (exactLoop size) data incoming pace) := by
    intro pace hle
    rw [Nat.sub_eq_zero_of_le hle, receive_of_done (decide_eq_true hle)]
    exact .here
  induction pace generalizing data incoming with
  | nil =>
    by_cases hle : size ≤ data.length
    · exact hdone hle
    · rw [receive, if_neg (by simpa [exactLoop] using hle)]
      exact .late fun h => absurd h.2 (Nat.not_lt_zero _)
  | cons found pace ih =>
    by_cases hle : size ≤ data.length
    · exact hdone hle
    rw [receive, if_neg (by simpa [exactLoop] using hle)]
    by_cases hfound : found = 0
    · rw [if_pos hfound]
      exact .late fun h => absurd (h.1 found List.mem_cons_self) (by omega)
    rw [if_neg hfound]
    by_cases hincoming : incoming = []
    · subst hincoming
      have hshort : (Client.mk [] (found :: pace)).incoming.length < size - data.length := by
        rw [List.length_nil]
        omega
      dsimp only
      rw [List.take_nil, if_pos rfl]
      exact .closed hshort
    have hpos := List.length_pos_of_ne_nil hincoming
    let count := min ((exactLoop size).limit data) found
    have hlimit : (exactLoop size).limit data = size - data.length := rfl
    let k := min count incoming.length
    have hk : 0 < k := by omega
    have htake : incoming.take count = incoming.take k := List.take_eq_take_min
    have hdrop : incoming.drop count = incoming.drop k := by
      rcases le_total count incoming.length with h | h
      · rw [show k = count from min_eq_left h]
      · rw [show k = incoming.length from min_eq_right h, List.drop_length,
          List.drop_eq_nil_of_le h]
    change Reads _ _ _ (if incoming.take count = [] then _ else
      receive (exactLoop size) (data ++ incoming.take count) (incoming.drop count) pace)
    have hlength : (incoming.take k).length = k := List.length_take_of_le (min_le_right _ _)
    have hchunk : incoming.take k ≠ [] := List.ne_nil_of_length_pos (by omega)
    rw [htake, hdrop, if_neg hchunk]
    refine .step hk (by omega) (min_le_right _ _) ?_
    have hnext : (data ++ incoming.take k).length = data.length + k := by
      rw [List.length_append, hlength]
    rw [Nat.sub_sub, ← hnext]
    refine ih (by omega) fun hle => ?_
    rw [Nat.sub_eq_zero_of_le hle, receive_of_done (decide_eq_true hle)]
    exact .here

theorem readExact_reads (size : Nat) (client : Client) :
    Reads client size [] (readExact size client) :=
  @receive_reads size client.pace [] client.incoming (Nat.zero_le _)

theorem readExact_ok {size : Nat} {client client' : Client} {data : Bytes}
    (h : readExact size client = .ok (data, client')) :
    client.incoming = data ++ client'.incoming ∧ data.length = size := by
  have hreads := readExact_reads size client
  rw [h] at hreads
  cases hreads with
  | read _ henough hrest =>
    rw [hrest]
    exact ⟨(List.take_append_drop size _).symm, List.length_take_of_le henough⟩

/-! ## Records -/

/-- A record that carries part of a handshake. -/
structure Record where
  minor : Byte
  size : Bytes
  payload : Bytes
  minor_range : 1 ≤ minor ∧ minor < 5
  size_length : size.length = 2
  size_eq : fromBytes size = payload.length
  payload_pos : 1 ≤ payload.length
  payload_le : payload.length ≤ maxTlsRecordBytes

namespace Record

def header (r : Record) : Bytes := 22 :: 3 :: r.minor :: r.size

def bytes (r : Record) : Bytes := r.header ++ r.payload

@[simp] theorem header_length (r : Record) : r.header.length = 5 := by
  simp [header, r.size_length]

@[simp] theorem size_of_header (r : Record) : (r.header.drop 3).take 2 = r.size := by
  rw [header, List.drop_succ_cons, List.drop_succ_cons, List.drop_succ_cons, List.drop_zero,
    List.take_of_length_le r.size_length.le]

end Record

theorem Record.isRecordHeader (r : Record) : IsRecordHeader r.header := by
  refine ⟨rfl, rfl, decide_eq_true r.minor_range, ?_, ?_⟩
  · rw [r.size_of_header, r.size_eq]
    exact r.payload_pos
  · rw [r.size_of_header, r.size_eq]
    exact r.payload_le

theorem exists_record {recordHeader payload : Bytes} (hlength : recordHeader.length = 5)
    (h : IsRecordHeader recordHeader)
    (hpayload : payload.length = fromBytes ((recordHeader.drop 3).take 2)) :
    ∃ r : Record, r.header = recordHeader ∧ r.payload = payload := by
  match recordHeader, hlength with
  | [type, major, minor, high, low], _ =>
    obtain ⟨htype, hmajor, hminor, hpos, hle⟩ := h
    obtain rfl := Option.some.inj htype
    obtain rfl := Option.some.inj hmajor
    rw [← hpayload] at hpos hle
    exact ⟨
      { minor := minor, size := [high, low], payload := payload
        minor_range := of_decide_eq_true hminor, size_length := rfl, size_eq := hpayload.symm
        payload_pos := hpos, payload_le := hle }, rfl, rfl⟩

/-! ## The handshake message -/

/-- The body of the ClientHello that starts a handshake. -/
def frame (handshake : Bytes) : Result Bytes := do
  ensure (4 ≤ handshake.length) closedDuringHello
  ensure (handshake.head? = some 1) "first TLS handshake is not ClientHello"
  let size := 4 + fromBytes ((handshake.drop 1).take 3)
  ensure (size ≤ maxClientHelloBytes) "TLS ClientHello is too large"
  ensure (size ≤ handshake.length) closedDuringHello
  pure ((handshake.drop 4).take (size - 4))

/-- `expected_handshake_size` is what the handshake so far says. -/
def Expects (handshake : Bytes) : Option Nat → Prop
  | none => handshake.length < 4
  | some size => 4 ≤ handshake.length ∧ handshake.head? = some 1 ∧
      size = 4 + fromBytes ((handshake.drop 1).take 3) ∧ size ≤ maxClientHelloBytes

theorem head?_append_of_le {handshake more : Bytes} (h : 4 ≤ handshake.length) :
    (handshake ++ more).head? = handshake.head? ∧
      ((handshake ++ more).drop 1).take 3 = (handshake.drop 1).take 3 := by
  constructor
  · rw [List.head?_append_of_ne_nil]
    exact List.ne_nil_of_length_pos (by omega)
  · rw [List.drop_append_of_le_length (by omega), List.take_append_of_le_length]
    rw [List.length_drop]
    omega

theorem Expects.append {handshake : Bytes} {size : Nat} (h : Expects handshake (some size))
    (more : Bytes) : Expects (handshake ++ more) (some size) := by
  obtain ⟨hlength, hhead, hsize, hmax⟩ := h
  obtain ⟨hhead', hbytes⟩ := @head?_append_of_le _ more hlength
  refine ⟨?_, hhead'.trans hhead, hbytes ▸ hsize, hmax⟩
  rw [List.length_append]
  omega

theorem Expects.frame_eq {handshake : Bytes} {size : Nat} (h : Expects handshake (some size)) :
    frame handshake = if size ≤ handshake.length then .ok ((handshake.drop 4).take (size - 4))
      else .error closedDuringHello := by
  obtain ⟨hlength, hhead, rfl, hmax⟩ := h
  simp only [frame, ensure, if_pos hlength, if_pos hhead, if_pos hmax]
  split_ifs <;> rfl

/-- A record either settles that the message is refused or lets the loop go on. -/
theorem nextExpected_cases {handshake : Bytes} {expected : Option Nat}
    (h : Expects handshake expected) (payload : Bytes) :
    (∃ e, nextExpected (handshake ++ payload) expected = .error e ∧
        ∀ more, frame (handshake ++ payload ++ more) = .error e) ∨
      ∃ expected', nextExpected (handshake ++ payload) expected = .ok expected' ∧
        Expects (handshake ++ payload) expected' := by
  cases expected with
  | some size => exact .inr ⟨some size, by simp [nextExpected, pure, Except.pure], h.append payload⟩
  | none =>
    by_cases hlength : 4 ≤ (handshake ++ payload).length
    · have hframe : ∀ more : Bytes, 4 ≤ (handshake ++ payload ++ more).length := by
        intro more
        rw [List.length_append]
        omega
      have hsame := fun more => @head?_append_of_le _ more hlength
      by_cases hhead : (handshake ++ payload).head? = some 1
      · by_cases hsize : 4 + fromBytes (((handshake ++ payload).drop 1).take 3) ≤ maxClientHelloBytes
        · refine .inr ⟨some (4 + fromBytes (((handshake ++ payload).drop 1).take 3)), ?_, hlength,
            hhead, rfl, hsize⟩
          simp only [nextExpected, hlength, and_self, if_true, ensure, if_pos hhead, if_pos hsize]
          rfl
        · refine .inl ⟨"TLS ClientHello is too large", ?_, fun more => ?_⟩
          · simp only [nextExpected, hlength, and_self, if_true, ensure, if_pos hhead, if_neg hsize]
            rfl
          · simp only [frame, ensure, if_pos (hframe more), (hsame more).1, (hsame more).2,
              if_pos hhead, if_neg hsize]
            rfl
      · refine .inl ⟨"first TLS handshake is not ClientHello", ?_, fun more => ?_⟩
        · simp only [nextExpected, hlength, and_self, if_true, ensure, if_neg hhead]
          rfl
        · simp only [frame, ensure, if_pos (hframe more), (hsame more).1, if_neg hhead]
          rfl
    · refine .inr ⟨none, ?_, not_le.mp hlength⟩
      rw [nextExpected, if_neg (fun hcond => hlength hcond.1)]
      rfl

/-! ## The loop over the records -/

/-- What the loop takes in are records, and what it returns is the body they frame. -/
theorem readRecords_ok {fuel : Nat} {raw handshake raw' body : Bytes} {expected : Option Nat}
    {client client' : Client}
    (h : readRecords fuel raw handshake expected client = .ok (raw', body, client'))
    (hexpects : Expects handshake expected) : ∃ records : List Record,
      client.incoming = records.flatMap Record.bytes ++ client'.incoming ∧
        raw' = raw ++ records.flatMap Record.bytes ∧
        frame (handshake ++ records.flatMap Record.payload) = .ok body := by
  induction fuel generalizing raw handshake expected client with
  | zero => cases h
  | succ fuel ih =>
    rw [readRecords] at h
    split at h
    · rename_i size hsize
      obtain ⟨rfl, hle⟩ := Option.filter_eq_some_iff.mp hsize
      obtain ⟨rfl, rfl, rfl⟩ := Prod.mk.injEq .. ▸ Prod.mk.injEq .. ▸ Except.ok.inj h
      refine ⟨[], rfl, (List.append_nil raw).symm, ?_⟩
      rw [List.flatMap_nil, List.append_nil, hexpects.frame_eq, if_pos (of_decide_eq_true hle)]
    · simp only [Refusal.bind_ok_iff, refuse_ok_iff, Result.ensure_ok_iff, Prod.exists] at h
      obtain ⟨recordHeader, middle, hheader, _, hrecord, _, -, payload, rest, hpayload, expected',
        hnext, h⟩ := h
      obtain ⟨hincoming, hlength⟩ := readExact_ok hheader
      obtain ⟨hmiddle, hpayloadLength⟩ := readExact_ok hpayload
      obtain ⟨r, rfl, rfl⟩ := exists_record hlength hrecord hpayloadLength
      have hexpects' : Expects (handshake ++ r.payload) expected' := by
        rcases nextExpected_cases hexpects r.payload with ⟨e, he, -⟩ | ⟨found, hfound, hexpects'⟩
        · cases hnext.symm.trans he
        · obtain rfl := Except.ok.inj (hnext.symm.trans hfound)
          exact hexpects'
      obtain ⟨records, hrecords, hraw, hframe⟩ := ih h hexpects'
      refine ⟨r :: records, ?_, ?_, ?_⟩
      · rw [hincoming, hmiddle, hrecords, List.flatMap_cons, Record.bytes, List.append_assoc,
          List.append_assoc]
      · rw [hraw, List.flatMap_cons, Record.bytes]
        simp only [List.append_assoc]
      · rw [List.flatMap_cons, ← List.append_assoc]
        exact hframe

/-- The client closes after its handshake, or that holds all of the message. -/
def Settled (handshake rest : Bytes) : Prop :=
  rest = [] ∨ frame handshake ≠ .error closedDuringHello

/-- However the handshake is cut into records, the loop finds what it frames. -/
theorem readRecords_eq {records : List Record} {fuel : Nat} {raw handshake rest : Bytes}
    {expected : Option Nat} {client : Client}
    (hincoming : client.incoming = records.flatMap Record.bytes ++ rest)
    (hexpects : Expects handshake expected)
    (hlimit : raw.length + (records.flatMap Record.bytes).length ≤ maxClientHelloBytes)
    (hsettled : Settled (handshake ++ records.flatMap Record.payload) rest)
    (hfuel : client.pace.length < fuel) :
    (readRecords fuel raw handshake expected client = .error timedOut ∧ ¬ client.Unhurried) ∨
      (readRecords fuel raw handshake expected client).map (fun found => found.2.1) =
        refuse (frame (handshake ++ records.flatMap Record.payload)) := by
  induction records generalizing fuel raw handshake expected client with
  | nil =>
    obtain ⟨fuel, rfl⟩ := Nat.exists_eq_add_one_of_ne_zero (Nat.ne_zero_of_lt hfuel)
    rw [List.flatMap_nil, List.append_nil] at hsettled
    rw [List.flatMap_nil, List.append_nil, readRecords]
    split
    · rename_i size hsize
      obtain ⟨rfl, hle⟩ := Option.filter_eq_some_iff.mp hsize
      rw [hexpects.frame_eq, if_pos (of_decide_eq_true hle)]
      exact .inr rfl
    · rename_i hnone
      have hshort : frame handshake = .error closedDuringHello := by
        cases expected with
        | none => simp [frame, ensure, not_le.mpr hexpects, bind, Except.bind]
        | some size =>
          rw [hexpects.frame_eq, if_neg]
          intro hle
          rw [Option.filter_some, if_pos (decide_eq_true hle)] at hnone
          cases hnone
      have hclosed : client.incoming = [] := by
        rw [hincoming, hsettled.resolve_right (not_not.mpr hshort)]
        rfl
      have hreads := readExact_reads 5 client
      generalize readExact 5 client = result at hreads ⊢
      cases hreads with
      | late hlate => exact .inl ⟨rfl, hlate⟩
      | closed =>
        rw [hshort]
        exact .inr rfl
      | read client' henough =>
        rw [hclosed] at henough
        exact absurd henough (by decide)
  | cons r records ih =>
    obtain ⟨fuel, rfl⟩ := Nat.exists_eq_add_one_of_ne_zero (Nat.ne_zero_of_lt hfuel)
    rw [List.flatMap_cons, Record.bytes] at hincoming hlimit
    rw [readRecords]
    split
    · rename_i size hsize
      obtain ⟨rfl, hle⟩ := Option.filter_eq_some_iff.mp hsize
      have hle : size ≤ handshake.length := of_decide_eq_true hle
      have hall : size ≤ (handshake ++ (r :: records).flatMap Record.payload).length := by
        rw [List.length_append]
        omega
      have hfour : 4 ≤ handshake.length := hexpects.1
      rw [(hexpects.append _).frame_eq, if_pos hall, List.drop_append_of_le_length hfour,
        List.take_append_of_le_length]
      · exact .inr rfl
      · rw [List.length_drop]
        omega
    · have htake : client.incoming.take 5 = r.header := by
        rw [hincoming, List.append_assoc, List.append_assoc, ← r.header_length, List.take_left]
      have hdrop : client.incoming.drop 5 = r.payload ++ (records.flatMap Record.bytes ++ rest) := by
        rw [hincoming, List.append_assoc, List.append_assoc, ← r.header_length, List.drop_left]
      have hheader := readExact_reads 5 client
      generalize readExact 5 client = result at hheader ⊢
      rcases hheader with hlate | hshort | ⟨client₁, -, hrest₁, hpace₁, hless⟩
      · exact .inl ⟨rfl, hlate⟩
      · simp only [hincoming, List.length_append, r.header_length] at hshort
        omega
      rw [hdrop] at hrest₁
      have hsize : fromBytes ((r.header.drop 3).take 2) = r.payload.length := by
        rw [r.size_of_header, r.size_eq]
      rw [List.length_append, List.length_append, r.header_length] at hlimit
      have hroom : (raw ++ r.header).length + r.payload.length ≤ maxClientHelloBytes := by
        rw [List.length_append, r.header_length]
        omega
      simp only [htake, List.nil_append, bind, Except.bind, hsize, refuse, ensure,
        if_pos r.isRecordHeader, if_pos hroom]
      have hpayload := readExact_reads r.payload.length client₁
      generalize readExact r.payload.length client₁ = result at hpayload ⊢
      rcases hpayload with hlate | hshort | ⟨client₂, -, hrest₂, hpace₂, hle⟩
      · exact .inl ⟨rfl, fun h => hlate (hpace₁ h)⟩
      · rw [hrest₁, List.length_append] at hshort
        omega
      rw [hrest₁, List.drop_left] at hrest₂
      simp only [hrest₁, List.take_left, List.nil_append]
      have hcons : handshake ++ (r :: records).flatMap Record.payload =
          handshake ++ r.payload ++ records.flatMap Record.payload := by
        rw [List.flatMap_cons, List.append_assoc]
      rw [hcons] at hsettled ⊢
      rcases nextExpected_cases hexpects r.payload with ⟨e, he, hframe⟩ | ⟨expected', hnext, hexpects'⟩
      · rw [he, hframe]
        exact .inr rfl
      · rw [hnext]
        have hlimit' : (raw ++ r.header ++ r.payload).length +
            (records.flatMap Record.bytes).length ≤ maxClientHelloBytes := by
          simp only [List.length_append, r.header_length]
          omega
        have hpaceless : client₂.pace.length < fuel := by
          rw [if_neg (by decide)] at hless
          omega
        rcases ih hrest₂ hexpects' hlimit' hsettled hpaceless with ⟨htimed, hhurry⟩ | hfound
        · exact .inl ⟨htimed, fun h => hhurry (hpace₂ (hpace₁ h))⟩
        · exact .inr hfound

/-- What `read_authorized_client_hello` decides of a handshake. -/
def verdict (handshake : Bytes) (expectedHost : List Char) : Except Refusal Unit :=
  refuse (frame handshake >>= fun body => checkServerName body expectedHost)

/-- Records within the limit on all of them. -/
def FitsLimit (records : List Record) : Prop :=
  (records.flatMap Record.bytes).length ≤ maxClientHelloBytes

theorem readAuthorizedClientHello_eq {records : List Record} {rest : Bytes} {client : Client}
    {expectedHost : List Char} (hincoming : client.incoming = records.flatMap Record.bytes ++ rest)
    (hlimit : FitsLimit records) (hsettled : Settled (records.flatMap Record.payload) rest)
    (hpace : client.Unhurried) :
    (readAuthorizedClientHello client expectedHost).map (fun _ => ()) =
      verdict (records.flatMap Record.payload) expectedHost := by
  have hstart : Expects [] none := Nat.zero_lt_succ _
  rcases @readRecords_eq records (client.pace.length + 1) [] [] rest none client hincoming hstart
    (by rwa [List.length_nil, Nat.zero_add]) (by rwa [List.nil_append]) (Nat.lt_succ_self _) with ⟨-, hhurry⟩ | hfound
  · exact absurd hpace hhurry
  · rw [List.nil_append] at hfound
    rw [readAuthorizedClientHello, verdict]
    cases hread : readRecords (client.pace.length + 1) [] [] none client with
    | error e =>
      rw [hread] at hfound
      cases hframe : frame (records.flatMap Record.payload) with
      | error m =>
        rw [hframe] at hfound
        obtain rfl : e = .request m := Except.error.inj hfound
        rfl
      | ok body =>
        rw [hframe] at hfound
        cases hfound
    | ok found =>
      rw [hread] at hfound
      cases hframe : frame (records.flatMap Record.payload) with
      | error m =>
        rw [hframe] at hfound
        cases hfound
      | ok body =>
        rw [hframe] at hfound
        obtain rfl : found.2.1 = body := Except.ok.inj hfound
        obtain ⟨raw, body, client'⟩ := found
        change Except.map _ (refuse (checkServerName body expectedHost) >>= _) =
          refuse (checkServerName body expectedHost)
        cases checkServerName body expectedHost <;> rfl

/-! ## Tunnels -/

/-- What was read after the header when a tunnel starts: records whose handshake starts with a
ClientHello that offers the host as its only name, up to case. -/
structure Authorized (host : List Char) (preface : Bytes) : Prop where
  hello : ∃ (records : List Record) (body : Bytes) (hello : ClientHello) (name : Bytes),
    preface = records.flatMap Record.bytes ∧ frame (records.flatMap Record.payload) = .ok body ∧
      hello.Encodes body ∧ hello.OffersOnly name ∧ (asciiText name).map Char.toLower = host

theorem readAuthorizedClientHello_ok {client client' : Client} {expectedHost : List Char}
    {preface : Bytes}
    (h : readAuthorizedClientHello client expectedHost = .ok (preface, client')) :
    client.incoming = preface ++ client'.incoming ∧ Authorized expectedHost preface := by
  simp only [readAuthorizedClientHello, Refusal.bind_ok_iff, refuse_ok_iff, checkServerName,
    Result.bind_ok_iff, Result.ensure_ok_iff, Prod.exists] at h
  obtain ⟨raw, body, rest, hread, _, ⟨serverName, hname, rfl⟩, h⟩ := h
  obtain ⟨rfl, rfl⟩ := Prod.mk.inj (Except.ok.inj h)
  obtain ⟨records, hincoming, rfl, hframe⟩ := readRecords_ok hread (Nat.zero_lt_succ _)
  obtain ⟨hello, name, hencodes, honly, rfl⟩ := clientHelloSni_ok hname
  rw [List.nil_append] at hframe ⊢
  exact ⟨hincoming, records, body, hello, name, rfl, hframe, hencodes, honly, rfl⟩

theorem tunnel_eq_some {proxy : Proxy} {client : Client} {host : List Char} {preface : Bytes}
    (h : (handle proxy client).tunnel = some (host, preface)) :
    ∃ header afterHeader afterHello port, readHeader client = .ok (header, afterHeader) ∧
      parseConnectRequest proxy.policy header = .ok (host, port) ∧
      readAuthorizedClientHello afterHeader host = .ok (preface, afterHello) := by
  unfold handle at h
  split at h
  · cases h
  · cases h
  · rename_i found port afterHeader haccept
    simp only [acceptRequest, Refusal.bind_ok_iff, refuse_ok_iff, Prod.exists] at haccept
    obtain ⟨header, client', hheader, found', port', hparse, haccept⟩ := haccept
    obtain ⟨rfl, rfl, rfl⟩ := Prod.mk.injEq .. ▸ Prod.mk.injEq .. ▸ Except.ok.inj haccept
    split_ifs at h with hsend
    split at h
    · cases h
    · rename_i clientHello afterHello hhello
      split at h
      · cases h
      · obtain ⟨rfl, rfl⟩ := Prod.mk.inj (Option.some.inj h)
        exact ⟨header, client', afterHello, port', hheader, hparse, hhello⟩

/-- `chatgpt.com` -/
def sampleHost : List Char := ['c', 'h', 'a', 't', 'g', 'p', 't', '.', 'c', 'o', 'm']

def lowerName : Bytes := [99, 104, 97, 116, 103, 112, 116, 46, 99, 111, 109]

/-- `CHATGPT.COM` -/
def upperName : Bytes := [67, 72, 65, 84, 71, 80, 84, 46, 67, 79, 77]

def serverNameOf (name : Bytes) : Bytes := [0, 14, 0, 0, 11] ++ name

/-- The body of a ClientHello with one cipher suite, and a name of eleven letters. -/
def sampleBody (name : Bytes) : Bytes :=
  [3, 3] ++ List.replicate 32 0 ++ [0, 0, 2, 19, 1, 1, 0, 0, 20, 0, 0, 0, 16] ++ serverNameOf name

def sampleHandshake (name : Bytes) : Bytes := [1, 0, 0, 63] ++ sampleBody name

/-- `CONNECT chatgpt.com:443 HTTP/1.1` -/
def sampleRequest : Bytes :=
  [67, 79, 78, 78, 69, 67, 84, 32, 99, 104, 97, 116, 103, 112, 116, 46, 99, 111, 109, 58, 52, 52, 51, 32, 72, 84, 84, 80, 47, 49, 46, 49] ++
    headerEnd

def sampleProxy : Proxy where
  policy := { literals := { isIpAddress := isDottedQuad }, taskExactHosts := [] }
  sendAll := true
  connectUpstream := fun _ _ => .ok ()

/-- The handshake in one record. -/
def samplePreface (name : Bytes) : Bytes := [22, 3, 1, 0, 67] ++ sampleHandshake name

def sampleClient (name : Bytes) : Client where
  incoming := sampleRequest ++ samplePreface name
  pace := [sampleRequest.length, 2, 3, 67]

/-- A part of the sample handshake as a record. -/
def sampleRecord (first count : Nat)
    (h : 1 ≤ count ∧ count ≤ 67 ∧
      (((sampleHandshake lowerName).drop first).take count).length = count) : Record where
  minor := 1
  size := [0, Fin.ofNat 256 count]
  payload := ((sampleHandshake lowerName).drop first).take count
  minor_range := by decide
  size_length := rfl
  size_eq := by
    rw [h.2.2]
    simp [fromBytes, Nat.ofDigits]
    omega
  payload_pos := by rw [h.2.2]; exact h.1
  payload_le := by rw [h.2.2]; exact h.2.1.trans (by decide)

/-- The name in capitals, as an extension. -/
def upperExtension : KeyedVector where
  key := [0, 0]
  size := [0, 16]
  value := serverNameOf upperName
  key_length := rfl
  size_length := rfl
  size_eq := by decide

def upperHello : ClientHello where
  versionAndRandom := [3, 3] ++ List.replicate 32 0
  sessionId := []
  cipherSuites := [19, 1]
  compressions := [0]
  extensions := [upperExtension]

end A3sBench.ConnectProxy
