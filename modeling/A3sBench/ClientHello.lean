import A3sBench.ConnectRequest
import A3sBench.Library.LengthPrefixed

/-!
# The server name of a ClientHello

`client_hello_sni`, against the fields of the message it reads.
-/

namespace A3sBench.ConnectProxy

open Library

def readServerName (value : Bytes) : Result (List Char) := do
  ensure (2 ≤ value.length) "invalid TLS server_name extension"
  let namesSize := fromBytes (value.take 2)
  ensure (namesSize = value.length - 2) "invalid TLS server_name list"
  let names := value.drop 2
  ensure (3 ≤ names.length ∧ names.head? = some 0) "TLS host_name is required"
  let hostSize := fromBytes ((names.drop 1).take 2)
  ensure (hostSize = names.length - 3) "multiple or malformed TLS server names"
  let name := names.drop 3
  ensure (name.all (fun b => b < 128) = true) "TLS SNI is not ASCII"
  let serverName := (asciiText name).map Char.toLower
  ensure (Matcher.fullmatch dnsHost serverName = true ∧ serverName.getLast? ≠ some '.')
    "TLS SNI is not a canonical DNS hostname"
  pure serverName

/-- The loop over the extensions. Each takes four bytes at least, so as much fuel as there are
bytes is enough. -/
def scanExtensions : Nat → Bytes → Option (List Char) → Result (Option (List Char))
  | 0, _, serverName => .ok serverName
  | fuel + 1, extensions, serverName =>
    if extensions = [] then .ok serverName
    else do
      ensure (4 ≤ extensions.length) "malformed TLS extensions"
      let kind := fromBytes (extensions.take 2)
      let size := fromBytes ((extensions.drop 2).take 2)
      ensure (size ≤ (extensions.drop 4).length) "malformed TLS extension length"
      let value := (extensions.drop 4).take size
      let rest := (extensions.drop 4).drop size
      if kind ≠ 0 then scanExtensions fuel rest serverName
      else do
        ensure (serverName = none) "invalid TLS server_name extension"
        let name ← readServerName value
        scanExtensions fuel rest (some name)

def clientHelloSni (body : Bytes) : Result (List Char) := do
  let malformed := "malformed TLS ClientHello"
  let (_, rest) ← takeBytes malformed (2 + 32) body
  let (_, rest) ← takeVector malformed 1 rest
  let (cipherSuites, rest) ← takeVector malformed 2 rest
  ensure (cipherSuites ≠ [] ∧ cipherSuites.length % 2 = 0) "malformed TLS cipher suites"
  let (compressions, rest) ← takeVector malformed 1 rest
  ensure (compressions ≠ []) "malformed TLS compression methods"
  let (extensions, rest) ← takeVector malformed 2 rest
  ensure (rest = []) "trailing TLS ClientHello bytes"
  let serverName ← scanExtensions extensions.length extensions none
  okOr serverName "TLS ClientHello has no SNI"

/-! ## The message -/

/-- The fields of a ClientHello. -/
structure ClientHello where
  versionAndRandom : Bytes
  sessionId : Bytes
  cipherSuites : Bytes
  compressions : Bytes
  extensions : List KeyedVector

namespace ClientHello

/-- The body of the message, without its handshake header. -/
def Encodes (hello : ClientHello) (body : Bytes) : Prop :=
  ∃ sessionId cipherSuites compressions extensions,
    body = hello.versionAndRandom ++ (sessionId ++ (cipherSuites ++ (compressions ++ extensions))) ∧
      hello.versionAndRandom.length = 34 ∧ IsVector 1 hello.sessionId sessionId ∧
      IsVector 2 hello.cipherSuites cipherSuites ∧ IsVector 1 hello.compressions compressions ∧
      IsVector 2 (hello.extensions.flatMap KeyedVector.bytes) extensions

/-- The extensions that carry server names. -/
def serverNameExtensions (hello : ClientHello) : List KeyedVector :=
  hello.extensions.filter (fun e => fromBytes e.key = 0)

/-- One server_name extension, and in it one entry, of type host_name. -/
def OffersOnly (hello : ClientHello) (name : Bytes) : Prop :=
  ∃ extension entry, hello.serverNameExtensions = [extension] ∧
    IsVector 2 (0 :: entry) extension.value ∧ IsVector 2 name entry

end ClientHello

theorem readServerName_ok {value : Bytes} {serverName : List Char}
    (h : readServerName value = .ok serverName) : ∃ name entry,
      IsVector 2 (0 :: entry) value ∧ IsVector 2 name entry ∧
        serverName = (asciiText name).map Char.toLower := by
  simp only [readServerName, Result.bind_ok_iff, Result.exists_unit_iff, Result.ensure_ok_iff,
    Result.pure_ok_iff] at h
  obtain ⟨hvalue, hnames, ⟨hlength, hkind⟩, hsize, -, -, rfl⟩ := h
  obtain ⟨entry, hentry⟩ := List.head?_eq_some_iff.mp hkind
  rw [hentry] at hsize hlength
  refine ⟨entry.drop 2, entry, ⟨value.take 2, ?_, ?_, ?_⟩, ⟨entry.take 2, ?_, ?_, ?_⟩, ?_⟩
  · rw [← hentry, List.take_append_drop]
  · rw [List.length_take]
    omega
  · rw [hnames, ← hentry, List.length_drop]
  · rw [List.take_append_drop]
  · rw [List.length_take]
    simp only [List.length_cons] at hlength
    omega
  · simpa using hsize
  · rw [hentry]
    rfl

/-- What the scan found, the server name it had before included. -/
theorem scanExtensions_ok {fuel : Nat} {extensions : Bytes} {serverName found : Option (List Char)}
    (hfuel : extensions.length ≤ fuel)
    (h : scanExtensions fuel extensions serverName = .ok found) :
    ∃ items : List KeyedVector, extensions = items.flatMap KeyedVector.bytes ∧
      ((items.filter (fun e => fromBytes e.key = 0) = [] ∧ found = serverName) ∨
        (serverName = none ∧ ∃ e name, items.filter (fun e => fromBytes e.key = 0) = [e] ∧
          readServerName e.value = .ok name ∧ found = some name)) := by
  induction fuel generalizing extensions serverName with
  | zero =>
    obtain rfl := List.length_eq_zero_iff.mp (Nat.le_zero.mp hfuel)
    exact ⟨[], rfl, .inl ⟨rfl, (Except.ok.inj h).symm⟩⟩
  | succ fuel ih =>
    rw [scanExtensions] at h
    split_ifs at h with hnil
    · subst hnil
      exact ⟨[], rfl, .inl ⟨rfl, (Except.ok.inj h).symm⟩⟩
    · simp only [Result.bind_ok_iff, Result.exists_unit_iff, Result.ensure_ok_iff] at h
      obtain ⟨hheader, hvalue, h⟩ := h
      obtain ⟨item, hkey, hitem, hbytes⟩ := KeyedVector.exists_of_le hheader hvalue
      have hshorter : ((extensions.drop 4).drop
          (fromBytes ((extensions.drop 2).take 2))).length ≤ fuel := by
        simp only [List.length_drop]
        omega
      split_ifs at h with hkind
      · obtain ⟨items, hitems, hfound⟩ := ih hshorter h
        rw [← hkey] at hkind
        refine ⟨item :: items, by rw [List.flatMap_cons, ← hitems, ← hbytes], ?_⟩
        rwa [List.filter_cons_of_neg (by simpa using hkind)]
      · simp only [Result.bind_ok_iff, Result.exists_unit_iff, Result.ensure_ok_iff] at h
        obtain ⟨rfl, name, hname, h⟩ := h
        obtain ⟨items, hitems, hfound⟩ := ih hshorter h
        rw [not_not, ← hkey] at hkind
        refine ⟨item :: items, by rw [List.flatMap_cons, ← hitems, ← hbytes], .inr ⟨rfl, ?_⟩⟩
        rcases hfound with ⟨hnone, rfl⟩ | ⟨hsome, _⟩
        · refine ⟨item, name, ?_, hitem ▸ hname, rfl⟩
          rw [List.filter_cons_of_pos (by simpa using hkind), hnone]
        · cases hsome

/-- The name is the only one the message offers, in lower case. -/
theorem clientHelloSni_ok {body : Bytes} {serverName : List Char}
    (h : clientHelloSni body = .ok serverName) : ∃ (hello : ClientHello) (name : Bytes),
      hello.Encodes body ∧ hello.OffersOnly name ∧
        serverName = (asciiText name).map Char.toLower := by
  simp only [clientHelloSni, Result.bind_ok_iff, Result.exists_unit_iff, Result.ensure_ok_iff,
    Result.okOr_ok_iff, Prod.exists, takeBytes_ok_iff, takeVector_ok_iff] at h
  obtain ⟨random, _, ⟨rfl, hrandom⟩, sessionId, _, ⟨session, rfl, hsession⟩, cipherSuites, _,
    ⟨ciphers, rfl, hciphers⟩, -, compressions, _, ⟨compression, rfl, hcompression⟩, -, extensions,
    _, ⟨vector, rfl, hvector⟩, rfl, found, hfound, rfl⟩ := h
  obtain ⟨items, rfl, hitems⟩ := scanExtensions_ok le_rfl hfound
  rcases hitems with ⟨-, hnone⟩ | ⟨-, e, name', hfilter, hname, hsome⟩
  · cases hnone
  · obtain rfl := Option.some.inj hsome
    obtain ⟨name, entry, hvalue, hentry, rfl⟩ := readServerName_ok hname
    refine ⟨
      { versionAndRandom := random, sessionId := sessionId, cipherSuites := cipherSuites
        compressions := compressions, extensions := items }, name, ?_, ⟨e, entry, hfilter, hvalue,
      hentry⟩, rfl⟩
    exact ⟨session, ciphers, compression, vector, by rw [List.append_nil], hrandom, hsession,
      hciphers, hcompression, hvector⟩

end A3sBench.ConnectProxy
