import MsgpackRpc.Lib.Regex
import MsgpackRpc.Methods.FunctionalMethod
import Mathlib.Data.List.Basic

/-!
# URIs

`URI::parse` tries three regular expressions in turn, which write to the same output variables, and
the formatter decides about brackets by itself.  Texts are sequences of bytes.  RE2 is a dependency:
its calls and the texts of its encoding enter as the fields of `RE2`.
-/

namespace MsgpackRpc.Addresses

open Methods (StandardException)

structure URI where
  scheme : List UInt8
  hostOrPath : List UInt8
  portNumber : Option UInt16 := none
  deriving DecidableEq, Repr

namespace URI

/-! ## Formatting -/

def decimalText (n : Nat) : List UInt8 := text (toString n)

/-- `formatter<URI>::format` -/
def format (uri : URI) : List UInt8 :=
  let host :=
    if uri.scheme = text "tcp" then
      if 58 ∉ uri.hostOrPath then uri.hostOrPath else text "[" ++ uri.hostOrPath ++ text "]"
    else
      uri.hostOrPath
  let port :=
    match uri.portNumber with
    | some port => text ":" ++ decimalText port.toNat
    | none => []
  uri.scheme ++ text "://" ++ host ++ port

/-! ## Parsing -/

/-- A class of characters, by its ranges. -/
def inClass (ranges : List (Char × Char)) (c : UInt8) : Bool :=
  ranges.any fun (lower, upper) => lower.toNat ≤ c.toNat && c.toNat ≤ upper.toNat

/-- `[a-zA-Z0-9+-.]`, where the hyphen makes a range. -/
def isHostChar : UInt8 → Bool := inClass [('a', 'z'), ('A', 'Z'), ('0', '9'), ('+', '.')]

/-- `[a-zA-Z0-9+-.:]` -/
def isIpv6Char : UInt8 → Bool :=
  inClass [('a', 'z'), ('A', 'Z'), ('0', '9'), ('+', '.'), (':', ':')]

/-- `\\d` -/
def isDigit : UInt8 → Bool := inClass [('0', '9')]

/-- One or more characters of a class. -/
def IsWord (isChar : UInt8 → Bool) (s : List UInt8) : Prop := s ≠ [] ∧ ∀ c ∈ s, isChar c = true

instance (isChar : UInt8 → Bool) (s : List UInt8) : Decidable (IsWord isChar s) :=
  decidable_of_iff ((!s.isEmpty && s.all isChar) = true) (by simp [IsWord])

theorem IsWord.mono {isChar isChar' : UInt8 → Bool}
    (hchar : ∀ c, isChar c = true → isChar' c = true) {s : List UInt8} (h : IsWord isChar s) :
    IsWord isChar' s :=
  ⟨h.1, fun c hc => hchar c (h.2 c hc)⟩

theorem IsWord.append {isChar : UInt8 → Bool} {s t : List UInt8} (h : IsWord isChar s)
    (h' : IsWord isChar t) : IsWord isChar (s ++ t) := by
  refine ⟨List.append_ne_nil_of_left_ne_nil h.1 t, ?_⟩
  intro c hc
  exact (List.mem_append.mp hc).elim (h.2 c) (h'.2 c)

/-- A class whose ranges lie in those of another one. -/
theorem inClass_mono {ranges ranges' : List (Char × Char)}
    (h : ∀ r ∈ ranges, ∃ r' ∈ ranges', r'.1.toNat ≤ r.1.toNat ∧ r.2.toNat ≤ r'.2.toNat) (c : UInt8)
    (hc : inClass ranges c = true) : inClass ranges' c = true := by
  rw [inClass, List.any_eq_true] at hc ⊢
  obtain ⟨r, hr, hin⟩ := hc
  rw [Bool.and_eq_true, decide_eq_true_iff, decide_eq_true_iff] at hin
  obtain ⟨r', hr', hlower, hupper⟩ := h r hr
  refine ⟨r', hr', ?_⟩
  rw [Bool.and_eq_true, decide_eq_true_iff, decide_eq_true_iff]
  exact ⟨Nat.le_trans hlower hin.1, Nat.le_trans hin.2 hupper⟩

/-- What `.+` matches: characters of the encoding without a newline. -/
def isLine (isText : List UInt8 → Bool) (s : List UInt8) : Bool :=
  !s.isEmpty && isText s && s.all (· != 10)

open Regex in
/-- A regular expression for a host between two literals and a port. -/
def tcpRegex (opening : String) (isChar : UInt8 → Bool) (closing : String) : Regex UInt8 :=
  .seq (.group (literal (text "tcp"))) <| .seq (literal (text opening)) <|
    .seq (.group (plus isChar)) <| .seq (literal (text closing)) <| .group (plus isDigit)

/-- `(tcp)://([a-zA-Z0-9+-.]+):(\d+)` -/
def ipRegex : Regex UInt8 := tcpRegex "://" isHostChar ":"

/-- `(tcp)://\[([a-zA-Z0-9+-.:]+)\]:(\d+)` -/
def ipv6Regex : Regex UInt8 := tcpRegex "://[" isIpv6Char "]:"

open Regex in
/-- `(unix)://(.+)` -/
def filePathRegex (isText : List UInt8 → Bool) : Regex UInt8 :=
  .seq (.group (literal (text "unix"))) <| .seq (literal (text "://")) <|
    .group (.word (isLine isText))

/-- The local variables that the matches write to. -/
structure Outputs where
  scheme : List UInt8 := []
  host : List UInt8 := []
  port : UInt16 := 0
  deriving DecidableEq, Repr

/-- The number that decimal digits stand for. -/
def decimalValue (digits : List UInt8) : Nat :=
  digits.foldl (fun value d => 10 * value + (d.toNat - 48)) 0

/-- What `parse` needs of RE2. -/
structure RE2 where
  /-- The texts of the encoding, for whose characters a dot stands. -/
  isText : List UInt8 → Bool
  /-- `FullMatch` with a number as its last output. -/
  fullMatchPort : Regex UInt8 → List UInt8 → Outputs → Bool × Outputs
  fullMatchPath : Regex UInt8 → List UInt8 → Outputs → Bool × Outputs

/-- A call succeeds where the text is matched and a number fits, and then it has written what the
first groups have matched.  Nothing is said of the outputs of a call that fails. -/
structure RE2.Lawful (re2 : RE2) : Prop where
  port_sound : ∀ {regex s out out'}, re2.fullMatchPort regex s out = (true, out') →
    ∃ scheme host port rest, regex.Matches s (scheme :: host :: port :: rest) ∧
      (IsWord isDigit port → decimalValue port < 65536 ∧
        out' = ⟨scheme, host, UInt16.ofNat (decimalValue port)⟩)
  port_complete : ∀ {regex s scheme host port}, regex.Matches s [scheme, host, port] →
    (∀ c, regex.Matches s c → c = [scheme, host, port]) → IsWord isDigit port →
      decimalValue port < 65536 → ∀ out, (re2.fullMatchPort regex s out).1 = true
  path_sound : ∀ {regex s out out'}, re2.fullMatchPath regex s out = (true, out') →
    ∃ scheme host rest, regex.Matches s (scheme :: host :: rest) ∧ out' = { out with scheme, host }
  path_complete : ∀ {regex s scheme host}, regex.Matches s [scheme, host] →
    (∀ c, regex.Matches s c → c = [scheme, host]) → ∀ out,
      (re2.fullMatchPath regex s out).1 = true

/-- RE2 as a backtracking matcher, which writes to the texts before it looks at the number. -/
def backtrackingRE2 (isText : List UInt8 → Bool) : RE2 where
  isText
  fullMatchPort regex s out :=
    match regex.fullMatch s with
    | some (scheme :: host :: port :: _) =>
        if decimalValue port < 65536 then
          (true, { scheme, host, port := UInt16.ofNat (decimalValue port) })
        else
          (false, { out with scheme, host })
    | _ => (false, out)
  fullMatchPath regex s out :=
    match regex.fullMatch s with
    | some (scheme :: host :: _) => (true, { out with scheme, host })
    | _ => (false, out)

theorem backtrackingRE2_lawful (isText : List UInt8 → Bool) : (backtrackingRE2 isText).Lawful where
  port_sound {regex s out out'} h := by
    simp only [backtrackingRE2] at h
    split at h
    · rename_i scheme host port rest hmatch
      refine ⟨scheme, host, port, rest, Regex.matches_of_fullMatch hmatch, fun _ => ?_⟩
      split at h
      · rename_i hport
        cases h
        exact ⟨hport, rfl⟩
      · cases h
    · cases h
  port_complete hmatches hunique _ hport out := by
    simp only [backtrackingRE2, Regex.fullMatch_eq_some_of_unique hmatches hunique, if_pos hport]
  path_sound {regex s out out'} h := by
    simp only [backtrackingRE2] at h
    split at h
    · rename_i hmatch
      cases h
      exact ⟨_, _, _, Regex.matches_of_fullMatch hmatch, rfl⟩
    · cases h
  path_complete hmatches hunique out := by
    simp only [backtrackingRE2, Regex.fullMatch_eq_some_of_unique hmatches hunique]

/-- What `parse` makes of the outputs of a match. -/
def ofOutputs (out : Outputs) : Except StandardException URI :=
  if out.scheme = text "tcp" then
    .ok { scheme := out.scheme, hostOrPath := out.host, portNumber := some out.port }
  else if out.scheme = text "unix" then
    .ok { scheme := out.scheme, hostOrPath := out.host }
  else
    .error (.msgpackRPC (.create .unexpectedError (text "Unexpected line is executed.")))

/-- The exception for a text that no regular expression matches. -/
def invalid (s : List UInt8) : StandardException :=
  .msgpackRPC (.create .invalidArgument (text "Invalid URI string: \"" ++ s ++ text "\"."))

def parse (re2 : RE2) (s : List UInt8) : Except StandardException URI :=
  let (isIp, out) := re2.fullMatchPort ipRegex s {}
  if isIp then ofOutputs out
  else
    let (isIpv6, out) := re2.fullMatchPort ipv6Regex s out
    if isIpv6 then ofOutputs out
    else
      let (isFilePath, out) := re2.fullMatchPath (filePathRegex re2.isText) s out
      if isFilePath then ofOutputs out
      else .error (invalid s)

/-! ## The grammar -/

/-- The texts that are URIs, and what they stand for. -/
inductive Grammar (isText : List UInt8 → Bool) : List UInt8 → URI → Prop where
  | host {host digits : List UInt8} (hhost : IsWord isHostChar host)
      (hdigits : IsWord isDigit digits) (hport : decimalValue digits < 65536) :
      Grammar isText (text "tcp://" ++ (host ++ (text ":" ++ digits)))
        ⟨text "tcp", host, some (UInt16.ofNat (decimalValue digits))⟩
  | bracketed {host digits : List UInt8} (hhost : IsWord isIpv6Char host)
      (hdigits : IsWord isDigit digits) (hport : decimalValue digits < 65536) :
      Grammar isText (text "tcp://[" ++ (host ++ (text "]:" ++ digits)))
        ⟨text "tcp", host, some (UInt16.ofNat (decimalValue digits))⟩
  | path {path : List UInt8} (hpath : isLine isText path = true) :
      Grammar isText (text "unix://" ++ path) ⟨text "unix", path, none⟩

/-! ## What the regular expressions match -/

variable {re2 : RE2} {isText : List UInt8 → Bool} {isChar : UInt8 → Bool} {opening closing : String}
  {s host digits : List UInt8} {out out' : Outputs} {uri : URI}

theorem matches_tcpRegex_iff {c : List (List UInt8)} :
    (tcpRegex opening isChar closing).Matches s c ↔ ∃ host digits, IsWord isChar host ∧
      IsWord isDigit digits ∧
      s = text "tcp" ++ (text opening ++ (host ++ (text closing ++ digits))) ∧
      c = [text "tcp", host, digits] := by
  simp only [tcpRegex, Regex.matches_group_seq_iff, Regex.matches_literal_seq_iff,
    Regex.matches_group_iff, Regex.matches_literal_iff, Regex.matches_plus_iff]
  constructor
  · rintro ⟨_, _, _, _, ⟨rfl, rfl⟩, ⟨_, ⟨host, _, _, _, ⟨hhost, rfl⟩, ⟨digits, ⟨_, ⟨hdigits, rfl⟩,
      rfl⟩, rfl⟩, rfl, rfl⟩, rfl⟩, rfl, rfl⟩
    exact ⟨host, digits, hhost, hdigits, rfl, rfl⟩
  · rintro ⟨host, digits, hhost, hdigits, rfl, rfl⟩
    exact ⟨_, _, _, _, ⟨rfl, rfl⟩, ⟨_, ⟨host, _, _, _, ⟨hhost, rfl⟩, ⟨digits, ⟨_, ⟨hdigits, rfl⟩,
      rfl⟩, rfl⟩, rfl, rfl⟩, rfl⟩, rfl, rfl⟩

theorem matches_filePathRegex_iff {c : List (List UInt8)} :
    (filePathRegex isText).Matches s c ↔ ∃ path, isLine isText path = true ∧
      s = text "unix" ++ (text "://" ++ path) ∧ c = [text "unix", path] := by
  simp only [filePathRegex, Regex.matches_group_seq_iff, Regex.matches_literal_seq_iff,
    Regex.matches_group_iff, Regex.matches_literal_iff, Regex.matches_word_iff]
  constructor
  · rintro ⟨_, _, _, _, ⟨rfl, rfl⟩, ⟨path, ⟨_, ⟨hpath, rfl⟩, rfl⟩, rfl⟩, rfl, rfl⟩
    exact ⟨path, hpath, rfl, rfl⟩
  · rintro ⟨path, hpath, rfl, rfl⟩
    exact ⟨_, _, _, _, ⟨rfl, rfl⟩, ⟨path, ⟨_, ⟨hpath, rfl⟩, rfl⟩, rfl⟩, rfl, rfl⟩

theorem notMem_of_isWord {c : UInt8} {word : List UInt8} (hword : IsWord isChar word)
    (hchar : isChar c = false) : c ∉ word := by
  intro hmem
  rw [hword.2 c hmem] at hchar
  cases hchar

/-- The closing literal begins with a character that no host and no port has, so a text is read in
one way. -/
theorem captures_tcpRegex {c : UInt8} {rest : List UInt8} (hclosing : text closing = c :: rest)
    (hchar : isChar c = false) (hrest : c ∉ rest) (hdigit : isDigit c = false)
    (hhost : IsWord isChar host) (hdigits : IsWord isDigit digits) {captures : List (List UInt8)}
    (h : (tcpRegex opening isChar closing).Matches
      (text "tcp" ++ (text opening ++ (host ++ (text closing ++ digits)))) captures) :
    captures = [text "tcp", host, digits] := by
  obtain ⟨host', digits', hhost', -, htext, rfl⟩ := matches_tcpRegex_iff.mp h
  have hsame := List.append_cancel_left (List.append_cancel_left htext)
  rw [hclosing, List.cons_append, List.cons_append] at hsame
  have hhost : c ∉ host := notMem_of_isWord hhost hchar
  have hrest : c ∉ rest ++ digits := by
    rw [List.mem_append, not_or]
    exact ⟨hrest, notMem_of_isWord hdigits hdigit⟩
  obtain ⟨rfl, -, hsame⟩ := (List.append_cons_inj_of_notMem hhost hrest).mp hsame
  rw [List.append_cancel_left hsame]

section Calls

variable (hre2 : re2.Lawful)
include hre2

/-- A match with a port that succeeds has written all the outputs. -/
theorem of_fullMatchPort
    (h : re2.fullMatchPort (tcpRegex opening isChar closing) s out = (true, out')) :
    ∃ host digits, IsWord isChar host ∧ IsWord isDigit digits ∧ decimalValue digits < 65536 ∧
      s = text "tcp" ++ (text opening ++ (host ++ (text closing ++ digits))) ∧
      out' = ⟨text "tcp", host, UInt16.ofNat (decimalValue digits)⟩ := by
  obtain ⟨scheme, host, digits, rest, hmatches, hwritten⟩ := hre2.port_sound h
  obtain ⟨host, digits, hhost, hdigits, hs, hcaptures⟩ := matches_tcpRegex_iff.mp hmatches
  cases hcaptures
  obtain ⟨hport, rfl⟩ := hwritten hdigits
  exact ⟨host, digits, hhost, hdigits, hport, hs, rfl⟩

theorem of_fullMatchPath
    (h : re2.fullMatchPath (filePathRegex isText) s out = (true, out')) :
    ∃ path, isLine isText path = true ∧ s = text "unix" ++ (text "://" ++ path) ∧
      out'.scheme = text "unix" ∧ out'.host = path := by
  obtain ⟨scheme, path, rest, hmatches, rfl⟩ := hre2.path_sound h
  obtain ⟨path, hpath, hs, hcaptures⟩ := matches_filePathRegex_iff.mp hmatches
  cases hcaptures
  exact ⟨path, hpath, hs, rfl, rfl⟩

theorem fullMatchPort_of_not_matches {regex : Regex UInt8} (h : ∀ c, ¬ regex.Matches s c)
    (out : Outputs) : (re2.fullMatchPort regex s out).1 = false := by
  rw [Bool.eq_false_iff]
  intro htrue
  obtain ⟨scheme, host, digits, rest, hmatches, -⟩ := hre2.port_sound (Prod.ext htrue rfl)
  exact h _ hmatches

/-- A text that is read in one way, with a port that fits. -/
theorem fullMatchPort_of_unique {regex : Regex UInt8} {scheme : List UInt8}
    (hmatches : regex.Matches s [scheme, host, digits])
    (hunique : ∀ c, regex.Matches s c → c = [scheme, host, digits])
    (hdigits : IsWord isDigit digits) (hport : decimalValue digits < 65536) (out : Outputs) :
    re2.fullMatchPort regex s out =
      (true, ⟨scheme, host, UInt16.ofNat (decimalValue digits)⟩) := by
  have htrue := hre2.port_complete hmatches hunique hdigits hport out
  obtain ⟨_, _, _, _, hmatches', hwritten⟩ := hre2.port_sound (Prod.ext htrue rfl)
  cases hunique _ hmatches'
  exact Prod.ext htrue (hwritten hdigits).2

theorem fullMatchPort_ipRegex (hhost : IsWord isHostChar host) (hdigits : IsWord isDigit digits)
    (hport : decimalValue digits < 65536) (out : Outputs) :
    re2.fullMatchPort ipRegex (text "tcp://" ++ (host ++ (text ":" ++ digits))) out =
      (true, ⟨text "tcp", host, UInt16.ofNat (decimalValue digits)⟩) :=
  fullMatchPort_of_unique hre2
    (matches_tcpRegex_iff.mpr ⟨host, digits, hhost, hdigits, rfl, rfl⟩)
    (fun _ => captures_tcpRegex rfl (by decide) (by decide) (by decide) hhost hdigits)
    hdigits hport out

theorem fullMatchPort_ipv6Regex (hhost : IsWord isIpv6Char host) (hdigits : IsWord isDigit digits)
    (hport : decimalValue digits < 65536) (out : Outputs) :
    re2.fullMatchPort ipv6Regex (text "tcp://[" ++ (host ++ (text "]:" ++ digits))) out =
      (true, ⟨text "tcp", host, UInt16.ofNat (decimalValue digits)⟩) :=
  fullMatchPort_of_unique hre2
    (matches_tcpRegex_iff.mpr ⟨host, digits, hhost, hdigits, rfl, rfl⟩)
    (fun _ => captures_tcpRegex rfl (by decide) (by decide) (by decide) hhost hdigits)
    hdigits hport out

theorem fullMatchPath_filePathRegex {path : List UInt8} (hpath : isLine isText path = true)
    (out : Outputs) :
    re2.fullMatchPath (filePathRegex isText) (text "unix://" ++ path) out =
      (true, { out with scheme := text "unix", host := path }) := by
  have hmatches : (filePathRegex isText).Matches (text "unix://" ++ path) [text "unix", path] :=
    matches_filePathRegex_iff.mpr ⟨path, hpath, rfl, rfl⟩
  have hunique : ∀ c, (filePathRegex isText).Matches (text "unix://" ++ path) c →
      c = [text "unix", path] := by
    intro c h
    obtain ⟨path', -, htext, rfl⟩ := matches_filePathRegex_iff.mp h
    have hpath : path = path' := @List.append_cancel_left _ (text "unix://") _ _ htext
    rw [hpath]
  have htrue := hre2.path_complete hmatches hunique out
  obtain ⟨_, _, _, hmatches', hwritten⟩ := hre2.path_sound (Prod.ext htrue rfl)
  cases hunique _ hmatches'
  exact Prod.ext htrue hwritten

end Calls

/-! ## Parsing follows the grammar -/

theorem ofOutputs_tcp (out : Outputs) (h : out.scheme = text "tcp") :
    ofOutputs out = .ok ⟨text "tcp", out.host, some out.port⟩ := by
  rw [ofOutputs, if_pos h, h]

theorem ofOutputs_unix (out : Outputs) (h : out.scheme = text "unix") :
    ofOutputs out = .ok ⟨text "unix", out.host, none⟩ := by
  rw [ofOutputs, h, if_neg (by decide), if_pos rfl]

theorem parse_of_ip (h : re2.fullMatchPort ipRegex s {} = (true, out)) :
    parse re2 s = ofOutputs out := by
  simp only [parse, h, if_true]

theorem parse_of_ipv6 (hip : (re2.fullMatchPort ipRegex s {}).1 = false)
    (h : re2.fullMatchPort ipv6Regex s (re2.fullMatchPort ipRegex s {}).2 = (true, out)) :
    parse re2 s = ofOutputs out := by
  simp only [parse, hip, h, if_true, Bool.false_eq_true, if_false]

/-- Neither of the regular expressions for TCP has matched, and they have left `out` behind. -/
theorem parse_of_not_tcp (hip : (re2.fullMatchPort ipRegex s {}).1 = false)
    (h : re2.fullMatchPort ipv6Regex s (re2.fullMatchPort ipRegex s {}).2 = (false, out)) :
    parse re2 s =
      if (re2.fullMatchPath (filePathRegex re2.isText) s out).1 then
        ofOutputs (re2.fullMatchPath (filePathRegex re2.isText) s out).2
      else .error (invalid s) := by
  simp only [parse, hip, h, Bool.false_eq_true, if_false]

/-- A text is parsed according to the grammar, or the exception says that it is invalid. -/
theorem parse_cases (hre2 : re2.Lawful) (s : List UInt8) :
    (∃ uri, parse re2 s = .ok uri ∧ Grammar re2.isText s uri) ∨
      parse re2 s = .error (invalid s) := by
  cases hip : (re2.fullMatchPort ipRegex s {}).1 with
  | true =>
    have hmatch : re2.fullMatchPort ipRegex s {} = (true, (re2.fullMatchPort ipRegex s {}).2) :=
      Prod.ext hip rfl
    rw [parse_of_ip hmatch]
    obtain ⟨host, digits, hhost, hdigits, hport, rfl, hout⟩ := of_fullMatchPort hre2 hmatch
    rw [hout]
    exact .inl ⟨_, ofOutputs_tcp _ rfl, .host hhost hdigits hport⟩
  | false =>
    rcases hipv6 : re2.fullMatchPort ipv6Regex s (re2.fullMatchPort ipRegex s {}).2 with
      ⟨_ | _, out⟩
    · rw [parse_of_not_tcp hip hipv6]
      rcases hpath : re2.fullMatchPath (filePathRegex re2.isText) s out with ⟨_ | _, out'⟩
      · exact .inr rfl
      · obtain ⟨path, hline, rfl, hscheme, rfl⟩ := of_fullMatchPath hre2 hpath
        exact .inl ⟨_, ofOutputs_unix _ hscheme, .path hline⟩
    · rw [parse_of_ipv6 hip hipv6]
      obtain ⟨host, digits, hhost, hdigits, hport, rfl, rfl⟩ := of_fullMatchPort hre2 hipv6
      exact .inl ⟨_, ofOutputs_tcp _ rfl, .bracketed hhost hdigits hport⟩

/-- A bracket is no character of a host. -/
theorem not_matches_ipRegex (rest : List UInt8) (c : List (List UInt8)) :
    ¬ ipRegex.Matches (text "tcp://[" ++ rest) c := by
  intro h
  obtain ⟨host, digits, hhost, -, htext, -⟩ := matches_tcpRegex_iff.mp h
  have hsame : 91 :: rest = host ++ (text ":" ++ digits) :=
    @List.append_cancel_left _ (text "tcp://") _ _ htext
  cases host with
  | nil => exact hhost.1 rfl
  | cons first host =>
    cases hsame
    exact absurd (hhost.2 91 List.mem_cons_self) (by decide)

theorem not_matches_tcpRegex (path : List UInt8) (c : List (List UInt8)) :
    ¬ (tcpRegex opening isChar closing).Matches (text "unix://" ++ path) c := by
  intro h
  obtain ⟨host, digits, -, -, htext, -⟩ := matches_tcpRegex_iff.mp h
  cases htext

theorem parse_of_grammar (hre2 : re2.Lawful) (h : Grammar re2.isText s uri) :
    parse re2 s = .ok uri := by
  cases h with
  | host hhost hdigits hport =>
    rw [parse_of_ip (fullMatchPort_ipRegex hre2 hhost hdigits hport {})]
    exact ofOutputs_tcp _ rfl
  | @bracketed host digits hhost hdigits hport =>
    have hother := not_matches_ipRegex (host ++ (text "]:" ++ digits))
    have hip := fullMatchPort_of_not_matches hre2 hother {}
    rw [parse_of_ipv6 hip (fullMatchPort_ipv6Regex hre2 hhost hdigits hport _)]
    exact ofOutputs_tcp _ rfl
  | @path path hpath =>
    have hip : (re2.fullMatchPort ipRegex (text "unix://" ++ path) {}).1 = false :=
      fullMatchPort_of_not_matches hre2 (not_matches_tcpRegex path) {}
    have hother : ∀ c, ¬ ipv6Regex.Matches (text "unix://" ++ path) c := not_matches_tcpRegex path
    have hipv6 := fullMatchPort_of_not_matches hre2 hother
      (re2.fullMatchPort ipRegex (text "unix://" ++ path) {}).2
    rw [parse_of_not_tcp hip (Prod.ext hipv6 rfl), fullMatchPath_filePathRegex hre2 hpath]
    exact ofOutputs_unix ⟨text "unix", _, _⟩ rfl

theorem parse_ok_iff (hre2 : re2.Lawful) :
    parse re2 s = .ok uri ↔ Grammar re2.isText s uri := by
  constructor
  · intro h
    rcases parse_cases hre2 s with ⟨uri', hparse, hgrammar⟩ | hinvalid
    · rw [h] at hparse
      cases hparse
      exact hgrammar
    · rw [h] at hinvalid
      cases hinvalid
  · exact parse_of_grammar hre2

theorem error_of_parse (hre2 : re2.Lawful) {e : StandardException}
    (h : parse re2 s = .error e) : e = invalid s := by
  rcases parse_cases hre2 s with ⟨uri, hparse, -⟩ | hinvalid
  · rw [h] at hparse
    cases hparse
  · rw [h] at hinvalid
    cases hinvalid
    rfl

/-! ## Formatting what was parsed -/

/-- What `parse` can return. -/
inductive WellFormed (isText : List UInt8 → Bool) : URI → Prop where
  | tcp {host : List UInt8} (port : UInt16) (hhost : IsWord isIpv6Char host) :
      WellFormed isText ⟨text "tcp", host, some port⟩
  | unix {path : List UInt8} (hpath : isLine isText path = true) :
      WellFormed isText ⟨text "unix", path, none⟩

/-- The class of the bracketed hosts has the colon besides. -/
theorem isIpv6Char_eq (c : UInt8) : isIpv6Char c = (isHostChar c || c == 58) := by
  have hcolon : (c == 58) = (58 ≤ c.toNat && c.toNat ≤ 58) := by
    rw [Bool.eq_iff_iff, beq_iff_eq, Bool.and_eq_true, decide_eq_true_iff, decide_eq_true_iff,
      ← UInt8.toNat_inj]
    change c.toNat = 58 ↔ _
    omega
  rw [hcolon]
  simp [isIpv6Char, isHostChar, inClass, Bool.or_assoc]

theorem wellFormed_of_grammar (h : Grammar isText s uri) : WellFormed isText uri := by
  cases h with
  | host hhost _ _ => exact .tcp _ (hhost.mono (inClass_mono (by decide)))
  | bracketed hhost _ _ => exact .tcp _ hhost
  | path hpath => exact .unix hpath

theorem toNat_ofNat_of_isDigit {c : Char} (h : c.isDigit = true) :
    48 ≤ c.toNat ∧ c.toNat ≤ 57 ∧ (UInt8.ofNat c.toNat).toNat = c.toNat := by
  rw [Char.isDigit_iff_toNat] at h
  have hupper : c.toNat ≤ 57 := h.2
  refine ⟨h.1, hupper, ?_⟩
  rw [UInt8.toNat_ofNat']
  omega

theorem decimalText_eq (n : Nat) :
    decimalText n = (Nat.toDigits 10 n).map fun c => UInt8.ofNat c.toNat := by
  rw [decimalText, text, Nat.toString_eq_ofList_toDigits, String.toList_ofList]

theorem isDigit_of_mem_toDigits {n : Nat} {c : Char} (h : c ∈ Nat.toDigits 10 n) :
    c.isDigit = true :=
  Nat.isDigit_of_mem_toDigits (by decide) (by decide) h

theorem decimalValue_decimalText (n : Nat) : decimalValue (decimalText n) = n := by
  have hfold : ∀ (cs : List Char) (init : Nat), (∀ c ∈ cs, c.isDigit = true) →
      (cs.map fun c => UInt8.ofNat c.toNat).foldl
        (fun value d => 10 * value + (d.toNat - 48)) init = Nat.ofDigitChars 10 cs init := by
    intro cs
    induction cs with
    | nil => exact fun _ _ => Nat.ofDigitChars_nil.symm
    | cons c cs ih =>
      intro init hcs
      rw [List.forall_mem_cons] at hcs
      rw [List.map_cons, List.foldl_cons, ih _ hcs.2, (toNat_ofNat_of_isDigit hcs.1).2.2,
        Nat.ofDigitChars_cons]
      rfl
  rw [decimalText_eq, decimalValue, hfold _ 0 fun _ => isDigit_of_mem_toDigits]
  exact Nat.ofDigitChars_ten_toDigits

theorem isWord_decimalText (n : Nat) : IsWord isDigit (decimalText n) := by
  rw [decimalText_eq]
  constructor
  · rw [ne_eq, List.map_eq_nil_iff]
    exact Nat.toDigits_ne_nil
  · intro d hd
    obtain ⟨c, hc, rfl⟩ := List.mem_map.mp hd
    obtain ⟨hlower, hupper, heq⟩ := toNat_ofNat_of_isDigit (isDigit_of_mem_toDigits hc)
    simp only [isDigit, inClass, List.any_cons, List.any_nil, Bool.or_false, Bool.and_eq_true,
      decide_eq_true_iff, heq]
    exact ⟨hlower, hupper⟩

theorem format_tcp {host : List UInt8} (h : 58 ∉ host) (port : UInt16) :
    format ⟨text "tcp", host, some port⟩ =
      text "tcp://" ++ (host ++ (text ":" ++ decimalText port.toNat)) := by
  simp only [format, if_true, if_pos h, List.append_assoc]
  rfl

theorem format_tcp_bracketed {host : List UInt8} (h : 58 ∈ host) (port : UInt16) :
    format ⟨text "tcp", host, some port⟩ =
      text "tcp://[" ++ (host ++ (text "]:" ++ decimalText port.toNat)) := by
  simp only [format, if_true, if_neg (not_not_intro h), List.append_assoc]
  rfl

theorem format_unix (path : List UInt8) :
    format ⟨text "unix", path, none⟩ = text "unix://" ++ path := by
  simp only [format, if_neg (show text "unix" ≠ text "tcp" by decide), List.append_nil]
  rfl

/-- The formatter writes brackets exactly where the host is not one of the first pattern. -/
theorem grammar_format (h : WellFormed isText uri) : Grammar isText (format uri) uri := by
  cases h with
  | @tcp host port hhost =>
    have hdigits := isWord_decimalText port.toNat
    have hvalue := decimalValue_decimalText port.toNat
    have hport : decimalValue (decimalText port.toNat) < 65536 := hvalue.symm ▸ port.toNat_lt
    have hsame : port = UInt16.ofNat (decimalValue (decimalText port.toNat)) := by
      rw [hvalue]
      exact UInt16.ofNat_toNat.symm
    by_cases hcolon : 58 ∈ host
    · rw [format_tcp_bracketed hcolon]
      conv => arg 3; rw [hsame]
      exact .bracketed hhost hdigits hport
    · have hword : IsWord isHostChar host := by
        refine ⟨hhost.1, ?_⟩
        intro c hc
        have hchar := hhost.2 c hc
        have hne : (c == 58) = false := beq_false_of_ne fun heq => hcolon (heq ▸ hc)
        rw [isIpv6Char_eq, hne, Bool.or_false] at hchar
        exact hchar
      rw [format_tcp hcolon]
      conv => arg 3; rw [hsame]
      exact .host hword hdigits hport
  | @unix path hpath =>
    rw [format_unix]
    exact .path hpath

theorem parse_format_iff (hre2 : re2.Lawful) :
    parse re2 (format uri) = .ok uri ↔ WellFormed re2.isText uri := by
  rw [parse_ok_iff hre2]
  exact ⟨wellFormed_of_grammar, grammar_format⟩

theorem format_injective (hre2 : re2.Lawful) {uri' : URI} (h : WellFormed re2.isText uri)
    (h' : WellFormed re2.isText uri') (hformat : format uri = format uri') : uri = uri' := by
  have hparse := (parse_format_iff hre2).mpr h
  rw [hformat, (parse_format_iff hre2).mpr h'] at hparse
  cases hparse
  rfl

/-- Every text is parsed as the grammar says or refused as invalid; what is returned is the result
for its own format, which no other URI has. -/
theorem parse_iff_grammar (re2 : RE2) (hre2 : re2.Lawful) (s : List UInt8) :
    (∀ uri, parse re2 s = .ok uri ↔ Grammar re2.isText s uri) ∧
      (∀ e, parse re2 s = .error e → e = invalid s) ∧
      (∀ uri, parse re2 s = .ok uri → parse re2 (format uri) = .ok uri) ∧
      ∀ s' uri uri', parse re2 s = .ok uri → parse re2 s' = .ok uri' →
        format uri = format uri' → uri = uri' := by
  refine ⟨fun _ => parse_ok_iff hre2, fun _ => error_of_parse hre2, ?_, ?_⟩
  · intro uri h
    exact (parse_format_iff hre2).mpr (wellFormed_of_grammar ((parse_ok_iff hre2).mp h))
  · intro s' uri uri' h h' hformat
    have hwell := wellFormed_of_grammar ((parse_ok_iff hre2).mp h)
    have hwell' := wellFormed_of_grammar ((parse_ok_iff hre2).mp h')
    exact format_injective hre2 hwell hwell' hformat

/-- A byte of a character in UTF-8 after the first one. -/
def isContinuation (c : UInt8) : Bool := 0x80 ≤ c && c < 0xC0

/-- Characters in UTF-8, one after the other, up to four bytes long. -/
def isUTF8 : List UInt8 → Bool
  | [] => true
  | c :: s =>
      if c < 0x80 then isUTF8 s
      else
        match s with
        | [] => false
        | c₁ :: s =>
            if 0xC2 ≤ c && c < 0xE0 then isContinuation c₁ && isUTF8 s
            else
              match s with
              | [] => false
              | c₂ :: s =>
                  if 0xE0 ≤ c && c < 0xF0 then isContinuation c₁ && isContinuation c₂ && isUTF8 s
                  else
                    match s with
                    | [] => false
                    | c₃ :: s =>
                        0xF0 ≤ c && c < 0xF5 && isContinuation c₁ && isContinuation c₂ &&
                          isContinuation c₃ && isUTF8 s

/-- RE2 with its default encoding. -/
def utf8RE2 : RE2 := backtrackingRE2 isUTF8

theorem parse_iff_grammar_bracketed :
    parse utf8RE2 (text "tcp://[::1]:0080") = .ok ⟨text "tcp", text "::1", some 80⟩ := by
  have hgrammar : Grammar utf8RE2.isText
      (text "tcp://[" ++ (text "::1" ++ (text "]:" ++ text "0080")))
      ⟨text "tcp", text "::1", some (UInt16.ofNat (decimalValue (text "0080")))⟩ :=
    .bracketed (by decide) (by decide) (by decide)
  exact ((parse_iff_grammar utf8RE2 (backtrackingRE2_lawful isUTF8) _).1 _).mpr hgrammar

theorem parse_refuses_path :
    ¬ ∀ s, (∃ uri, parse utf8RE2 s = .ok uri) ↔ ∃ uri, Grammar (fun _ => true) s uri := by
  intro h
  have hpath : Grammar (fun _ => true) (text "unix://" ++ [0xFF]) ⟨text "unix", [0xFF], none⟩ :=
    .path rfl
  obtain ⟨uri, hparse⟩ := (h _).mpr ⟨_, hpath⟩
  have hinvalid : parse utf8RE2 (text "unix://" ++ [0xFF]) =
      .error (invalid (text "unix://" ++ [0xFF])) := by decide
  rw [hinvalid] at hparse
  cases hparse

end URI

end MsgpackRpc.Addresses
