import A3sBench.Library.Matcher
import A3sBench.Library.SplitOn
import A3sBench.TaskSource

/-!
# Host names of the CONNECT proxy

The two host patterns of `codex_connect_proxy.py` and `validate_task_allow_host`.
The Task loader checks the same names byte by byte.
-/

namespace A3sBench.ConnectProxy

open Library

def isLowerAlnum (c : Char) : Bool := ('a' ≤ c && c ≤ 'z') || c.isDigit

def isLabelChar (c : Char) : Bool := isLowerAlnum c || c = '-'

/-- `[a-z0-9](?:[a-z0-9-]{0,61}[a-z0-9])?` -/
def dnsLabel : Matcher :=
  .seq (.char isLowerAlnum)
    (.opt (.seq (.times (.char isLabelChar) 0 61) (.char isLowerAlnum)))

/-- The lookahead `(?=.{1,253}$)` at the start. -/
def dnsLength : Matcher :=
  .seq .start (.lookahead (.seq (.times (.char (· ≠ '\n')) 1 253) .finish))

def dnsLabels : Matcher := .seq dnsLabel (.star (.seq (.char (· = '.')) dnsLabel))

/-- `_DNS_HOST` -/
def dnsHost : Matcher := .seq dnsLength (.seq dnsLabels .finish)

/-- The address literals that `ipaddress.ip_address` takes. -/
structure Literals where
  isIpAddress : String → Bool

def validateTaskAllowHost (literals : Literals) (host : String) : Result String := do
  ensure (host ≠ "" ∧ host.length ≤ 253 ∧ host.toList.all (fun c => c.toNat < 128) = true ∧
      host.toList.map Char.toLower = host.toList ∧ host.toList.getLast? ≠ some '.' ∧
      Matcher.fullmatch dnsHost host.toList = true)
    "Task allow host is not a canonical lowercase DNS hostname"
  ensure (literals.isIpAddress host = false) "Task allow host must not be an IP literal"
  pure host

/-! ## The language of the pattern -/

structure IsLabel (label : List Char) : Prop where
  length_le : label.length ≤ 63
  first : ∃ c, label.head? = some c ∧ isLowerAlnum c = true
  last : ∃ c, label.getLast? = some c ∧ isLowerAlnum c = true
  inner : ∀ c ∈ label, isLabelChar c = true

theorem isLabelChar_of_isLowerAlnum {c : Char} (h : isLowerAlnum c = true) :
    isLabelChar c = true := by
  rw [isLabelChar, h, Bool.true_or]

def labelLanguage : Language Char := {label | IsLabel label}

theorem reads_dnsLabel : Matcher.Reads dnsLabel labelLanguage := by
  have hreads := (Matcher.reads_char isLowerAlnum).seq
    (((Matcher.reads_char isLabelChar).times 0 61).seq (Matcher.reads_char isLowerAlnum)).opt
  have hlanguage : ∀ label, label ∈ Matcher.charLanguage isLowerAlnum *
      (Matcher.timesLanguage (Matcher.charLanguage isLabelChar) 0 61 *
        Matcher.charLanguage isLowerAlnum + 1) ↔ IsLabel label := by
    intro label
    constructor
    · rintro ⟨_, ⟨c, hc, rfl⟩, tail, htail, rfl⟩
      rcases htail with ⟨middle, hmiddle, _, ⟨d, hd, rfl⟩, rfl⟩ | htail
      · obtain ⟨hall, _, hlen⟩ := Matcher.mem_timesLanguage_char.mp hmiddle
        refine ⟨by simp; omega, ⟨c, rfl, hc⟩, ⟨d, ?_, hd⟩, ?_⟩
        · change ((c :: middle) ++ [d]).getLast? = some d
          exact List.getLast?_concat
        intro e he
        simp only [List.mem_append, List.mem_singleton] at he
        rcases he with rfl | he | rfl
        · exact isLabelChar_of_isLowerAlnum hc
        · exact hall e he
        · exact isLabelChar_of_isLowerAlnum hd
      · obtain rfl := (Language.mem_one tail).mp htail
        refine ⟨by simp, ⟨c, rfl, hc⟩, ⟨c, rfl, hc⟩, ?_⟩
        simpa using isLabelChar_of_isLowerAlnum hc
    · rintro ⟨hlen, ⟨c, hhead, hc⟩, ⟨d, hlast, hd⟩, hall⟩
      obtain ⟨rest, rfl⟩ := List.head?_eq_some_iff.mp hhead
      refine ⟨[c], ⟨c, hc, rfl⟩, rest, ?_, rfl⟩
      rcases List.eq_nil_or_concat rest with rfl | ⟨middle, e, rfl⟩
      · exact .inr rfl
      · have hlast' : e = d := by
          rw [List.concat_eq_append, ← List.cons_append, List.getLast?_concat] at hlast
          exact Option.some.inj hlast
        subst hlast'
        refine .inl ⟨middle, Matcher.mem_timesLanguage_char.mpr ⟨?_, Nat.zero_le _, ?_⟩, [e],
          ⟨e, hd, rfl⟩, by simp⟩
        · intro x hx
          exact hall x (by simp [hx])
        · simp at hlen
          omega
  intro at_ last
  rw [dnsLabel, hreads at_ last]
  simp only [hlanguage]
  rfl

/-- Every part between the dots is a label. -/
def IsHost (text : List Char) : Prop := ∀ label ∈ text.splitOn '.', IsLabel label

def hostLanguage : Language Char := {text | IsHost text}

theorem not_mem_dot_of_isLabel {label : List Char} (h : IsLabel label) : '.' ∉ label := by
  intro hdot
  have hchar := h.inner '.' hdot
  revert hchar
  decide

theorem reads_dnsLabels : Matcher.Reads dnsLabels hostLanguage := by
  have hreads := reads_dnsLabel.seq
    (Matcher.Reads.star ((Matcher.reads_char (· = '.')).seq reads_dnsLabel))
  have hsplit : ∀ (words : List (List Char)) (label : List Char), IsLabel label →
      (∀ w ∈ words, w ∈ Matcher.charLanguage (· = '.') * labelLanguage) →
      IsHost (label ++ words.flatten) := by
    intro words
    induction words with
    | nil =>
        intro label hlabel _
        rw [IsHost, List.flatten_nil, List.append_nil,
          List.splitOn_eq_singleton (not_mem_dot_of_isLabel hlabel)]
        simpa using hlabel
    | cons w words ih =>
        intro label hlabel hwords
        obtain ⟨⟨_, ⟨c, hc, rfl⟩, next, hnext, rfl⟩, hrest⟩ := List.forall_mem_cons.mp hwords
        obtain rfl := of_decide_eq_true hc
        have hhost := ih next hnext hrest
        have hflatten : label ++ ((['.'] ++ next) :: words).flatten =
            label ++ '.' :: (next ++ words.flatten) := by simp
        change IsHost (label ++ ((['.'] ++ next) :: words).flatten)
        rw [IsHost, hflatten, List.splitOn_append_cons_self,
          List.splitOn_eq_singleton (not_mem_dot_of_isLabel hlabel)]
        simpa [IsHost] using ⟨hlabel, hhost⟩
  have hjoin : ∀ (labels : List (List Char)) (label : List Char), IsLabel label →
      (∀ l ∈ labels, IsLabel l) → ['.'].intercalate (label :: labels) ∈
        labelLanguage *
          KStar.kstar (Matcher.charLanguage (· = '.') * labelLanguage) := by
    intro labels label hlabel hlabels
    refine ⟨label, hlabel, (labels.map ('.' :: ·)).flatten, ⟨_, rfl, ?_⟩, ?_⟩
    · intro w hw
      obtain ⟨l, hl, rfl⟩ := List.mem_map.mp hw
      exact ⟨['.'], ⟨'.', rfl, rfl⟩, l, hlabels l hl, rfl⟩
    · induction labels generalizing label with
      | nil => simp [List.intercalate]
      | cons next labels ih =>
          obtain ⟨hnext, hrest⟩ := List.forall_mem_cons.mp hlabels
          have htail := ih next hnext hrest
          simp only [List.intercalate, List.intersperse_cons_cons, List.flatten_cons,
            List.map_cons] at htail ⊢
          rw [← htail]
          simp
  intro at_ last
  rw [dnsLabels, hreads at_ last]
  constructor
  · rintro ⟨w, ⟨label, hlabel, _, ⟨words, rfl, hwords⟩, rfl⟩, h⟩
    exact ⟨_, hsplit words label hlabel hwords, h⟩
  · rintro ⟨w, hw, h⟩
    refine ⟨w, ?_, h⟩
    obtain ⟨label, labels, hparts⟩ := List.exists_cons_of_ne_nil (List.splitOn_ne_nil '.' w)
    have hall : ∀ l ∈ label :: labels, IsLabel l := hparts ▸ hw
    have hjoined := hjoin labels label (hall label List.mem_cons_self)
      (fun l hl => hall l (List.mem_cons_of_mem _ hl))
    rwa [← hparts, List.intercalate_splitOn] at hjoined

theorem mem_intercalate_dot {labels : List (List Char)} {c : Char}
    (h : c ∈ ['.'].intercalate labels) : c = '.' ∨ ∃ label ∈ labels, c ∈ label := by
  induction labels with
  | nil => simp [List.intercalate] at h
  | cons label labels ih =>
      cases labels with
      | nil => exact .inr ⟨label, by simp, by simpa [List.intercalate] using h⟩
      | cons next labels =>
          simp only [List.intercalate, List.intersperse_cons_cons, List.flatten_cons,
            List.mem_append, List.mem_singleton] at h ih
          rcases h with hlabel | hdot | hrest
          · exact .inr ⟨label, List.mem_cons_self, hlabel⟩
          · exact .inl hdot
          · rcases ih hrest with hdot | ⟨l, hl, hc⟩
            · exact .inl hdot
            · exact .inr ⟨l, List.mem_cons_of_mem _ hl, hc⟩

theorem IsHost.chars {text : List Char} (h : IsHost text) :
    ∀ c ∈ text, c = '.' ∨ isLabelChar c = true := by
  intro c hc
  have hjoin : ['.'].intercalate (text.splitOn '.') = text := List.intercalate_splitOn '.'
  rw [← hjoin] at hc
  rcases mem_intercalate_dot hc with hdot | ⟨label, hlabel, hc⟩
  · exact .inl hdot
  · exact .inr ((h label hlabel).inner c hc)

/-- The pattern, with what its lookahead bounds. -/
theorem fullmatch_dnsHost_iff {text : List Char} : Matcher.fullmatch dnsHost text = true ↔
    (1 ≤ text.length ∧ text.length ≤ 253) ∧ IsHost text := by
  have hbody : Matcher.fullmatch (.seq dnsLabels .finish) text = true ↔ IsHost text := by
    rw [Matcher.fullmatch_seq_finish, reads_dnsLabels.fullmatch_iff]
    rfl
  rw [dnsHost, dnsLength, Matcher.fullmatch_start_seq_lookahead, hbody, and_congr_left_iff]
  intro hhost
  refine Matcher.times_seq_finish_ne_nil_iff ?_ (by decide)
  intro c hc
  rcases hhost.chars c hc with rfl | hlabel
  · decide
  · apply decide_eq_true
    rintro rfl
    revert hlabel
    decide

/-! ## The two validators -/

theorem isLowerAlnum_iff {c : Char} : isLowerAlnum c = true ↔
    Text.isAsciiAlphanumeric c = true ∧ c.isUpper = false := by
  simp only [isLowerAlnum, Text.isAsciiAlphanumeric, Char.isDigit, Char.isUpper, Bool.or_eq_true,
    Bool.and_eq_true, decide_eq_true_eq, decide_eq_false_iff_not, Char.le_def, ge_iff_le,
    UInt32.le_iff_toNat_le]
  simp
  omega

theorem isLabelChar_iff {c : Char} : isLabelChar c = true ↔
    (Text.isAsciiAlphanumeric c = true ∨ c = '-') ∧ c.isUpper = false := by
  rw [isLabelChar, Bool.or_eq_true, isLowerAlnum_iff, decide_eq_true_eq]
  constructor
  · rintro (⟨halnum, hupper⟩ | rfl)
    · exact ⟨.inl halnum, hupper⟩
    · exact ⟨.inr rfl, rfl⟩
  · rintro ⟨halnum | rfl, hupper⟩
    · exact .inl ⟨halnum, hupper⟩
    · exact .inr rfl

theorem isLabel_iff {label : List Char} : IsLabel label ↔
    TaskSource.isHostLabel label = true ∧ ∀ c ∈ label, c.isUpper = false := by
  simp only [TaskSource.isHostLabel, Bool.and_eq_true, decide_eq_true_eq, List.all_eq_true,
    Bool.or_eq_true, Option.any_eq_true]
  constructor
  · rintro ⟨hlen, ⟨c, hhead, hc⟩, ⟨d, hlast, hd⟩, hall⟩
    have hne : label ≠ [] := by
      rintro rfl
      cases hhead
    exact ⟨⟨⟨⟨⟨hne, hlen⟩, c, hhead, (isLowerAlnum_iff.mp hc).1⟩, d, hlast,
      (isLowerAlnum_iff.mp hd).1⟩, fun e he => (isLabelChar_iff.mp (hall e he)).1⟩,
      fun e he => (isLabelChar_iff.mp (hall e he)).2⟩
  · rintro ⟨⟨⟨⟨⟨_, hlen⟩, c, hhead, hc⟩, d, hlast, hd⟩, hall⟩, hupper⟩
    exact ⟨hlen, ⟨c, hhead, isLowerAlnum_iff.mpr ⟨hc, hupper c (List.mem_of_head? hhead)⟩⟩,
      ⟨d, hlast, isLowerAlnum_iff.mpr ⟨hd, hupper d (List.mem_of_getLast? hlast)⟩⟩,
      fun e he => isLabelChar_iff.mpr ⟨hall e he, hupper e he⟩⟩

theorem isHost_iff {text : List Char} : IsHost text ↔
    (text.splitOn '.').all TaskSource.isHostLabel = true ∧ ∀ c ∈ text, c.isUpper = false := by
  constructor
  · intro h
    refine ⟨List.all_eq_true.mpr (fun label hlabel => (isLabel_iff.mp (h label hlabel)).1), ?_⟩
    intro c hc
    rcases h.chars c hc with rfl | hchar
    · rfl
    · exact (isLabelChar_iff.mp hchar).2
  · rintro ⟨hall, hupper⟩ label hlabel
    exact isLabel_iff.mpr ⟨List.all_eq_true.mp hall label hlabel,
      fun c hc => hupper c (mem_of_mem_splitOn hlabel hc).1⟩

theorem not_isHost_of_mem_nil {text : List Char} (h : [] ∈ text.splitOn '.') : ¬ IsHost text := by
  intro hhost
  obtain ⟨c, hhead, _⟩ := (hhost [] h).first
  cases hhead

theorem IsHost.ne_nil {text : List Char} (h : IsHost text) : text ≠ [] := by
  rintro rfl
  exact not_isHost_of_mem_nil (by simp) h

theorem IsHost.getLast?_ne {text : List Char} (h : IsHost text) : text.getLast? ≠ some '.' := by
  intro hlast
  obtain ⟨init, rfl⟩ := List.getLast?_eq_some_iff.mp hlast
  refine not_isHost_of_mem_nil ?_ h
  rw [List.splitOn_append_cons_self]
  simp

theorem IsHost.ascii {text : List Char} (h : IsHost text) {c : Char} (hc : c ∈ text) :
    0x20 < c.toNat ∧ c.toNat < 0x7F := by
  rcases h.chars c hc with rfl | hchar
  · decide
  · simp only [isLabelChar, isLowerAlnum, Char.isDigit, Bool.or_eq_true, Bool.and_eq_true,
      decide_eq_true_eq, Char.le_def, ge_iff_le, UInt32.le_iff_toNat_le] at hchar
    rcases hchar with (hlower | hdigit) | rfl
    · change 97 ≤ c.toNat ∧ c.toNat ≤ 122 at hlower
      omega
    · change 48 ≤ c.toNat ∧ c.toNat ≤ 57 at hdigit
      omega
    · decide

theorem toLower_of_isUpper_eq_false {c : Char} (h : c.isUpper = false) : c.toLower = c := by
  unfold Char.toLower
  rw [dif_neg]
  rintro ⟨hge, hle⟩
  simp only [Char.isUpper, decide_eq_false_iff_not] at h
  exact h ⟨hge, hle⟩

theorem IsHost.byteLength {host : String} (h : IsHost host.toList) :
    Text.byteLength host = host.length := by
  have hsize : ∀ c ∈ host.toList, c.utf8Size = 1 := fun c hc =>
    Text.utf8Size_of_ascii (by have := (h.ascii hc).2; omega)
  rw [Text.byteLength, List.map_congr_left hsize]
  simp [String.length_toList]

/-- The Task loader accepts the hosts of the pattern that are no address. -/
theorem validateNetworkAllowHost_ok_iff {loader : TaskSource.Loader} {host : String} :
    TaskSource.validateNetworkAllowHost loader host = .ok () ↔
      IsHost host.toList ∧ host.length ≤ 253 ∧ loader.isIpAddr host = false := by
  simp only [TaskSource.validateNetworkAllowHost, Result.bind_ok_iff, Result.exists_unit_iff,
    Result.ensure_ok_iff]
  constructor
  · rintro ⟨⟨_, hlen, hascii, _, hupper, _⟩, hip, hlabels⟩
    have hhost : IsHost host.toList := by
      refine isHost_iff.mpr ⟨hlabels, fun c hc => ?_⟩
      simpa using List.all_eq_true.mp hupper c hc
    exact ⟨hhost, hhost.byteLength ▸ hlen, hip⟩
  · rintro ⟨hhost, hlen, hip⟩
    obtain ⟨hlabels, hupper⟩ := isHost_iff.mp hhost
    refine ⟨⟨?_, hhost.byteLength ▸ hlen, ?_, ?_, ?_, hhost.getLast?_ne⟩, hip, hlabels⟩
    · rintro rfl
      exact hhost.ne_nil rfl
    · refine List.all_eq_true.mpr (fun c hc => decide_eq_true ?_)
      have := (hhost.ascii hc).2
      omega
    · refine List.all_eq_true.mpr (fun c hc => ?_)
      have := hhost.ascii hc
      simp only [Bool.not_eq_true', Bool.or_eq_false_iff, decide_eq_false_iff_not]
      omega
    · refine List.all_eq_true.mpr (fun c hc => ?_)
      rw [hupper c hc]
      rfl

theorem validateTaskAllowHost_ok_iff {literals : Literals} {host : String} :
    validateTaskAllowHost literals host = .ok host ↔
      IsHost host.toList ∧ host.length ≤ 253 ∧ literals.isIpAddress host = false := by
  simp only [validateTaskAllowHost, Result.bind_ok_iff, Result.exists_unit_iff,
    Result.ensure_ok_iff, Result.pure_ok_iff, fullmatch_dnsHost_iff]
  constructor
  · rintro ⟨⟨_, hlen, _, _, _, _, hhost⟩, hip, _⟩
    exact ⟨hhost, hlen, hip⟩
  · rintro ⟨hhost, hlen, hip⟩
    obtain ⟨_, hupper⟩ := isHost_iff.mp hhost
    refine ⟨⟨?_, hlen, ?_, ?_, hhost.getLast?_ne, ⟨?_, hlen⟩, hhost⟩, hip, trivial⟩
    · rintro rfl
      exact hhost.ne_nil rfl
    · refine List.all_eq_true.mpr (fun c hc => decide_eq_true ?_)
      have := (hhost.ascii hc).2
      omega
    · rw [List.map_congr_left (fun c hc => toLower_of_isUpper_eq_false (hupper c hc)),
        List.map_id']
    · exact List.length_pos_of_ne_nil hhost.ne_nil

/-- Made of ASCII letters, digits, `-` and `.`. -/
def IsHostText (host : String) : Prop :=
  ∀ c ∈ host.toList, Text.isAsciiAlphanumeric c = true ∨ c = '-' ∨ c = '.'

/-- The Task loader and the proxy allow the same hosts, where the two address
parsers agree on host texts. -/
theorem allowHost_agree {loader : TaskSource.Loader} {literals : Literals}
    (hliterals : ∀ host, IsHostText host → loader.isIpAddr host = literals.isIpAddress host)
    (host : String) : TaskSource.validateNetworkAllowHost loader host = .ok () ↔
      validateTaskAllowHost literals host = .ok host := by
  rw [validateNetworkAllowHost_ok_iff, validateTaskAllowHost_ok_iff, and_congr_right_iff]
  intro hhost
  have htext : IsHostText host := by
    intro c hc
    rcases hhost.chars c hc with hdot | hchar
    · exact .inr (.inr hdot)
    · exact (isLabelChar_iff.mp hchar).1.imp_right .inl
  rw [hliterals host htext]

/-- A dotted quad without leading zeros. -/
def isDottedQuad (host : String) : Bool :=
  let parts := host.toList.splitOn '.'
  parts.length = 4 && parts.all (fun part => part ≠ [] && part.all Char.isDigit &&
    (part.length = 1 || part.head? ≠ some '0') && F64.digitsValue part ≤ 255)

theorem allowHost_agree_sample :
    TaskSource.validateNetworkAllowHost { validatePolicy := fun _ => .ok (), isIpAddr := isDottedQuad }
        "pypi.org" = .ok () ↔
      validateTaskAllowHost { isIpAddress := isDottedQuad } "pypi.org" = .ok "pypi.org" :=
  allowHost_agree (fun _ _ => rfl) "pypi.org"

end A3sBench.ConnectProxy
