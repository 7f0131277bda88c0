import A3sBench.FileTree
import A3sBench.ProxyHosts

/-!
# CONNECT requests

`parse_connect_request` and `validate_authority` of the proxy, on the bytes of
one header.
-/

namespace A3sBench.ConnectProxy

open Library

def maxHeaderBytes : Nat := 16 * 1024

def maxHeaderLines : Nat := 100

/-- `_EXACT_HOSTS` -/
def exactHosts : List String :=
  ["chatgpt.com", "ab.chatgpt.com", "api.openai.com", "auth.openai.com"]

def literal (text : List Char) : Matcher :=
  text.foldr (fun c m => .seq (.char (· = c)) m) (fun at_ => [at_])

/-- `[a-z0-9-]+` -/
def labelChars : Matcher := .seq (.char isLabelChar) (.star (.char isLabelChar))

/-- `_CONTENT_HOST` -/
def contentHost : Matcher :=
  .seq .start (.seq (.seq (literal "sdmntpr".toList)
    (.seq labelChars (literal ".oaiusercontent.com".toList))) .finish)

/-- What the proxy was started with. -/
structure Policy where
  literals : Literals
  /-- `_TASK_EXACT_HOSTS` -/
  taskExactHosts : List (List Char)

/-- `bytes.decode("ascii")`, of bytes that are ASCII. -/
def asciiText (bytes : Bytes) : List Char := bytes.map (fun b => Char.ofNat b.val)

def validateAuthority (policy : Policy) (authority : List Char) : Result (List Char × Nat) := do
  ensure (authority ≠ [] ∧ authority.all (fun c => 0x21 ≤ c.toNat && c.toNat ≤ 0x7E) = true)
    "invalid authority"
  ensure ('@' ∉ authority ∧ ¬ "://".toList <:+: authority)
    "userinfo and absolute URLs are forbidden"
  ensure (authority.count ':' = 1 ∧ authority.head? ≠ some '[')
    "authority must be a DNS host and port"
  let host := (authority.takeWhile (· ≠ ':')).map Char.toLower
  let port := (authority.dropWhile (· ≠ ':')).drop 1
  ensure (port = "443".toList ∧ host ≠ [] ∧ host.getLast? ≠ some '.' ∧
      Matcher.fullmatch dnsHost host = true)
    "authority is not an allowed host on port 443"
  ensure (policy.literals.isIpAddress (String.ofList host) = false) "IP literals are forbidden"
  ensure (String.ofList host ∈ exactHosts ∨ host ∈ policy.taskExactHosts ∨
      Matcher.fullmatch contentHost host = true)
    "destination is not allowed"
  pure (host, 443)

/-- `bytes.split(b"\r\n")` -/
def splitLines : Bytes → List Bytes
  | [] => [[]]
  | 13 :: 10 :: rest => [] :: splitLines rest
  | b :: rest => (splitLines rest).modifyHead (b :: ·)

theorem splitLines_ne_nil (text : Bytes) : splitLines text ≠ [] := by
  fun_induction splitLines text with
  | case1 => exact List.cons_ne_nil _ _
  | case2 => exact List.cons_ne_nil _ _
  | case3 b rest hrest ih =>
    obtain ⟨line, lines, hlines⟩ := List.exists_cons_of_ne_nil ih
    rw [hlines]
    exact List.cons_ne_nil _ _

def headerEnd : Bytes := [13, 10, 13, 10]

/-- `valid_name_bytes` -/
def isNameByte (b : Byte) : Bool :=
  Text.isAsciiAlphanumeric (Char.ofNat b.val) || Char.ofNat b.val ∈ "!#$%&'*+-.^_`|~".toList

/-- A header line after the request line. -/
def checkHeaderLine (line : Bytes) : Result Unit := do
  ensure (58 ∈ line ∧ line.head? ≠ some 32 ∧ line.head? ≠ some 9) "invalid HTTP header"
  let name := line.takeWhile (· ≠ 58)
  ensure (name ≠ [] ∧ name.all isNameByte = true) "invalid HTTP header name"

def parseConnectRequest (policy : Policy) (header : Bytes) : Result (List Char × Nat) := do
  ensure (header.length ≤ maxHeaderBytes ∧ headerEnd <:+ header) "invalid HTTP header framing"
  ensure (header.all (fun b => 0x20 ≤ b && b < 0x7F || b = 0x0D || b = 0x0A) = true)
    "invalid ASCII in HTTP header"
  let lines := splitLines (header.take (header.length - 4))
  ensure (lines.length ≤ maxHeaderLines ∧ ∀ line ∈ lines, line ≠ []) "invalid HTTP header"
  match (asciiText (lines.headD [])).splitOn ' ' with
  | [method, authority, version] => do
    ensure (method ≠ [] ∧ authority ≠ [] ∧ version ≠ []) "invalid request line"
    ensure (method = "CONNECT".toList ∧
        (version = "HTTP/1.0".toList ∨ version = "HTTP/1.1".toList))
      "only HTTP CONNECT is supported"
    lines.tail.forM checkHeaderLine
    validateAuthority policy authority
  | _ => .error "invalid request line"

/-! ## The rule for content hosts -/

def IsContentHost (host : List Char) : Prop :=
  ∃ middle, host = "sdmntpr".toList ++ middle ++ ".oaiusercontent.com".toList ∧ middle ≠ [] ∧
    ∀ c ∈ middle, isLabelChar c = true

theorem reads_literal (text : List Char) : Matcher.Reads (literal text) {text} := by
  induction text with
  | nil => exact Matcher.reads_here
  | cons c text ih =>
    have hcons : Matcher.charLanguage (· = c) * {text} = ({c :: text} : Language Char) := by
      ext w
      constructor
      · rintro ⟨_, ⟨d, hd, rfl⟩, _, rfl, rfl⟩
        obtain rfl := of_decide_eq_true hd
        rfl
      · rintro rfl
        exact ⟨[c], ⟨c, by simp, rfl⟩, text, rfl, rfl⟩
    have hreads := (Matcher.reads_char (· = c)).seq ih
    rwa [hcons] at hreads

theorem reads_labelChars :
    Matcher.Reads labelChars {w | w ≠ [] ∧ ∀ c ∈ w, isLabelChar c = true} := by
  have hreads := (Matcher.reads_char isLabelChar).seq (Matcher.reads_char isLabelChar).star
  have hwords : Matcher.charLanguage isLabelChar * KStar.kstar (Matcher.charLanguage isLabelChar) =
      ({w | w ≠ [] ∧ ∀ c ∈ w, isLabelChar c = true} : Language Char) := by
    ext w
    constructor
    · rintro ⟨_, ⟨c, hc, rfl⟩, _, ⟨words, rfl, hwords⟩, rfl⟩
      refine ⟨List.cons_ne_nil _ _, List.forall_mem_cons.mpr ⟨hc, fun d hd => ?_⟩⟩
      obtain ⟨word, hword, hd⟩ := List.mem_flatten.mp hd
      obtain ⟨e, he, rfl⟩ := hwords word hword
      obtain rfl := List.mem_singleton.mp hd
      exact he
    · rintro ⟨hne, hall⟩
      obtain ⟨c, rest, rfl⟩ := List.exists_cons_of_ne_nil hne
      obtain ⟨hc, hrest⟩ := List.forall_mem_cons.mp hall
      refine ⟨[c], ⟨c, hc, rfl⟩, rest, ⟨rest.map ([·]), ?_, fun word hword => ?_⟩, rfl⟩
      · rw [← List.flatMap_def, List.flatMap_singleton']
      · obtain ⟨d, hd, rfl⟩ := List.mem_map.mp hword
        exact ⟨d, hrest d hd, rfl⟩
  rwa [hwords] at hreads

theorem fullmatch_contentHost_iff {host : List Char} :
    Matcher.fullmatch contentHost host = true ↔ IsContentHost host := by
  have hreads := (reads_literal "sdmntpr".toList).seq
    (reads_labelChars.seq (reads_literal ".oaiusercontent.com".toList))
  have hstart : Matcher.fullmatch contentHost host = Matcher.fullmatch (.seq (.seq
      (literal "sdmntpr".toList) (.seq labelChars (literal ".oaiusercontent.com".toList))) .finish)
      host := by
    simp only [contentHost, Matcher.fullmatch, Matcher.seq, Matcher.start, if_pos,
      List.flatMap_cons, List.flatMap_nil, List.append_nil]
  rw [hstart, Matcher.fullmatch_seq_finish, hreads.fullmatch_iff]
  constructor
  · rintro ⟨_, rfl, _, ⟨middle, ⟨hne, hall⟩, _, rfl, rfl⟩, rfl⟩
    exact ⟨middle, by simp only [List.append_assoc], hne, hall⟩
  · rintro ⟨middle, rfl, hne, hall⟩
    exact ⟨_, rfl, _, ⟨middle, ⟨hne, hall⟩, _, rfl, rfl⟩, by simp only [List.append_assoc]⟩

/-! ## Accepted requests -/

/-- A host the proxy may connect to. -/
structure Allowed (policy : Policy) (host : List Char) : Prop where
  listed : String.ofList host ∈ exactHosts ∨ host ∈ policy.taskExactHosts ∨ IsContentHost host
  isHost : IsHost host
  not_ip : policy.literals.isIpAddress (String.ofList host) = false

theorem validateAuthority_ok_iff {policy : Policy} {authority host : List Char} {port : Nat}
    (h : validateAuthority policy authority = .ok (host, port)) :
    ∃ written, authority = written ++ ":443".toList ∧ host = written.map Char.toLower ∧
      port = 443 ∧ Allowed policy host := by
  simp only [validateAuthority, Result.bind_ok_iff, Result.exists_unit_iff, Result.ensure_ok_iff,
    Result.pure_ok_iff, Prod.mk.injEq, fullmatch_dnsHost_iff, fullmatch_contentHost_iff] at h
  obtain ⟨-, -, ⟨hcolon, -⟩, ⟨hport, -, -, -, hhost⟩, hip, hlisted, rfl, rfl⟩ := h
  refine ⟨_, ?_, rfl, rfl, hlisted, hhost, hip⟩
  have hmem : ':' ∈ authority := List.count_pos_iff.mp (by omega)
  have hdrop : authority.dropWhile (· ≠ ':') = ':' :: "443".toList := by
    cases hrest : authority.dropWhile (· ≠ ':') with
    | nil =>
      have hnone := List.dropWhile_eq_nil_iff.mp hrest ':' hmem
      simp at hnone
    | cons c rest =>
      have hfirst := List.head_dropWhile_not (p := fun c => decide (c ≠ ':')) (l := authority)
      rw [hrest] at hport
      simp only [hrest] at hfirst
      have hc : c = ':' := by
        by_contra hne
        exact absurd (decide_eq_true hne) (Bool.not_eq_true _ ▸ hfirst (List.cons_ne_nil _ _))
      rw [hc, show rest = "443".toList from hport]
  calc authority = authority.takeWhile (· ≠ ':') ++ authority.dropWhile (· ≠ ':') :=
        List.takeWhile_append_dropWhile.symm
    _ = authority.takeWhile (· ≠ ':') ++ ":443".toList := by rw [hdrop]; rfl

def lineEnd : Bytes := [13, 10]

theorem flatMap_splitLines (text : Bytes) :
    (splitLines text).flatMap (· ++ lineEnd) = text ++ lineEnd := by
  fun_induction splitLines text with
  | case1 => rfl
  | case2 rest ih =>
    rw [List.flatMap_cons, ih]
    rfl
  | case3 b rest hrest ih =>
    obtain ⟨line, lines, hlines⟩ := List.exists_cons_of_ne_nil (splitLines_ne_nil rest)
    rw [hlines, List.flatMap_cons] at ih
    rw [hlines, List.modifyHead_cons, List.flatMap_cons, List.cons_append, List.cons_append, ih]
    rfl

/-- One complete CONNECT request, with the host as it was written. -/
structure IsConnect (header : Bytes) (written : List Char) : Prop where
  lines : ∃ requestLine fields version,
    header = (requestLine :: fields).flatMap (· ++ lineEnd) ++ lineEnd ∧
      asciiText requestLine =
        "CONNECT ".toList ++ (written ++ ":443".toList) ++ ' ' :: version ∧
      (version = "HTTP/1.0".toList ∨ version = "HTTP/1.1".toList) ∧
      ∀ field ∈ fields, checkHeaderLine field = .ok ()

theorem parseConnectRequest_ok {policy : Policy} {header : Bytes} {host : List Char} {port : Nat}
    (h : parseConnectRequest policy header = .ok (host, port)) : ∃ written,
      IsConnect header written ∧ host = written.map Char.toLower ∧ port = 443 ∧
        Allowed policy host := by
  simp only [parseConnectRequest, Result.bind_ok_iff, Result.exists_unit_iff,
    Result.ensure_ok_iff] at h
  obtain ⟨⟨-, hend⟩, -, -, hparts⟩ := h
  split at hparts
  · rename_i method authority version hsplit
    simp only [Result.bind_ok_iff, Result.exists_unit_iff, Result.ensure_ok_iff,
      Result.forM_ok_iff] at hparts
    obtain ⟨-, ⟨rfl, hversion⟩, hfields, hauthority⟩ := hparts
    obtain ⟨written, rfl, hhost, hport, hallowed⟩ := validateAuthority_ok_iff hauthority
    refine ⟨written, ⟨?_⟩, hhost, hport, hallowed⟩
    obtain ⟨text, rfl⟩ := hend
    have htext : (text ++ headerEnd).take ((text ++ headerEnd).length - 4) = text := by
      rw [List.length_append, show headerEnd.length = 4 from rfl, Nat.add_sub_cancel,
        List.take_left]
    rw [htext] at hsplit hfields
    obtain ⟨line, lines, hlines⟩ := List.exists_cons_of_ne_nil (splitLines_ne_nil text)
    rw [hlines] at hsplit hfields
    refine ⟨line, lines, version, ?_, ?_, hversion, hfields⟩
    · rw [← hlines, flatMap_splitLines, List.append_assoc]
      rfl
    · have hjoin : [' '].intercalate ((asciiText line).splitOn ' ') = asciiText line :=
        List.intercalate_splitOn ' '
      rw [← hjoin, show (asciiText line).splitOn ' ' = _ from hsplit]
      simp [List.intercalate]
  · cases hparts

end A3sBench.ConnectProxy
