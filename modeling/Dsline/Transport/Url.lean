import Dsline.Core.Text
import Dsline.Library.Outcome
import Dsline.Library.Split
/-!
# Transport URLs

`scheme://target?key1=value1&key2=value2`: the schemes, the parser with its
errors, the validation of a TCP target, and the printer.
-/

namespace Dsline

open Split Outcome

inductive TransportError where
  | emptyUrl
  | missingScheme
  | unsupportedScheme (scheme : Text)
  | missingTarget (kind : String)
  | invalidPort (port : Text)
  | invalidQuery (part : Text)
  deriving DecidableEq, Repr

inductive TransportScheme where
  | shm
  | bus
  | unix
  | tcp
  deriving DecidableEq, Repr

namespace TransportScheme

/-- `TransportScheme::as_str`. -/
def asStr : TransportScheme → Text
  | .shm => ['s', 'h', 'm']
  | .bus => ['b', 'u', 's']
  | .unix => ['u', 'n', 'i', 'x']
  | .tcp => ['t', 'c', 'p']

/-- `TransportScheme::from_str`. -/
def fromStr (s : Text) : Except TransportError TransportScheme :=
  if s = asStr .shm then .ok .shm
  else if s = asStr .bus then .ok .bus
  else if s = asStr .unix then .ok .unix
  else if s = asStr .tcp then .ok .tcp
  else .error (.unsupportedScheme s)

/-- What a URL without a target is missing. -/
def missing : TransportScheme → String
  | .shm => "channel name"
  | .bus => "topic"
  | .unix => "socket path"
  | .tcp => "host:port"

@[simp] theorem fromStr_asStr (scheme : TransportScheme) :
    fromStr scheme.asStr = .ok scheme := by
  cases scheme <;> rfl

/-- **A scheme is read from its own text only.** -/
theorem fromStr_eq_ok {s : Text} {scheme : TransportScheme} :
    fromStr s = .ok scheme ↔ s = scheme.asStr := by
  constructor
  · intro h
    unfold fromStr at h
    split_ifs at h with h₁ h₂ h₃ h₄ <;> cases h <;> assumption
  · rintro rfl
    exact fromStr_asStr scheme

theorem asStr_ne_nil (scheme : TransportScheme) : scheme.asStr ≠ [] := by
  cases scheme <;> decide

theorem colon_not_mem_asStr (scheme : TransportScheme) : ':' ∉ scheme.asStr := by
  cases scheme <;> decide

theorem question_not_mem_asStr (scheme : TransportScheme) : '?' ∉ scheme.asStr := by
  cases scheme <;> decide

end TransportScheme

/-- `://`. -/
def schemeEnd : Text := [':', '/', '/']

structure TransportUrl where
  scheme : TransportScheme
  target : Text
  query : List (Text × Text)
  deriving DecidableEq, Repr

/-- `validate_tcp_target`. -/
def validateTcpTarget (target : Text) : Except TransportError Unit :=
  -- the last colon of all, also where the path holds one
  match splitLast ':' target with
  | none => .error (.missingTarget "host:port")
  | some (host, portAndPath) =>
      let portStr := upTo '/' portAndPath
      if host = [] then .error (.missingTarget "host")
      -- `parse::<u16>` reads a leading plus sign
      else if portStr = [] ∨ (parseU16 portStr).isNone then .error (.invalidPort portStr)
      else .ok ()

/-- The loop of `parse_query` over the parts of a query. -/
def parseParts : List Text → Except TransportError (List (Text × Text))
  | [] => .ok []
  | part :: parts =>
      -- an empty part is passed over
      if part = [] then parseParts parts
      -- the first equals sign: the value may hold more of them
      else match splitOnce ['='] part with
        | none => .error (.invalidQuery part)
        | some (k, v) =>
            if k = [] then .error (.invalidQuery part)
            else do
              let pairs ← parseParts parts
              .ok ((k, v) :: pairs)

/-- `parse_query`. -/
def parseQuery (query : Text) : Except TransportError (List (Text × Text)) :=
  parseParts (query.splitOn '&')

namespace TransportUrl

/-- `TransportUrl::query_param`. -/
def queryParam (url : TransportUrl) (key : Text) : Option Text :=
  (url.query.find? (·.1 = key)).map (·.2)

/-- The query as it is printed: the first pair after a question mark, each
further one after an ampersand. -/
def printQuery : List (Text × Text) → Text
  | [] => []
  | (k, v) :: pairs =>
      '?' :: k ++ '=' :: v ++ pairs.flatMap fun pair => '&' :: pair.1 ++ '=' :: pair.2

/-- `TransportUrl::to_url_string`. -/
def toUrlString (url : TransportUrl) : Text :=
  url.scheme.asStr ++ schemeEnd ++ url.target ++ printQuery url.query

/-- The target of a URL and its query, from what follows the scheme. -/
def splitRest (rest : Text) : Text × Text :=
  match splitOnce ['?'] rest with
  | some (target, query) => (target, query)
  | none => (rest, [])

/-- The checks of a target: it is there, and it is valid if it is one of TCP. -/
def checkTarget (scheme : TransportScheme) (target : Text) : Except TransportError Unit :=
  if target = [] then .error (.missingTarget scheme.missing)
  else if scheme = .tcp then validateTcpTarget target
  else .ok ()

/-- The pairs of a query, none if it is absent. -/
def parseQueryPart (queryPart : Text) : Except TransportError (List (Text × Text)) :=
  if queryPart = [] then .ok [] else parseQuery queryPart

/-- `TransportUrl::from_str`. -/
def fromStr (s : Text) : Except TransportError TransportUrl :=
  if s = [] then .error .emptyUrl
  -- the first occurrence: the target may hold more of them
  else match splitOnce schemeEnd s with
    | none => .error .missingScheme
    | some (schemePart, rest) =>
        if schemePart = [] then .error .missingScheme
        else do
          let scheme ← TransportScheme.fromStr schemePart
          let (target, queryPart) := splitRest rest
          checkTarget scheme target
          let query ← parseQueryPart queryPart
          .ok { scheme, target, query }

theorem parseQueryPart_eq (queryPart : Text) : parseQueryPart queryPart = parseQuery queryPart := by
  rw [parseQueryPart]
  split
  · rename_i h
    rw [h]
    rfl
  · rfl

theorem checkTarget_eq_ok {scheme : TransportScheme} {target : Text} :
    checkTarget scheme target = .ok () ↔
      target ≠ [] ∧ (scheme = .tcp → validateTcpTarget target = .ok ()) := by
  rw [checkTarget]
  split_ifs with hnil htcp
  · simp [hnil]
  · simp [hnil, htcp]
  · simp [hnil, htcp]

theorem splitRest_append {target query : Text} (h : '?' ∉ target) :
    splitRest (target ++ '?' :: query) = (target, query) := by
  rw [splitRest, splitOnce_single.2 ⟨h, rfl⟩]

theorem splitRest_of_not_mem {rest : Text} (h : '?' ∉ rest) : splitRest rest = (rest, []) := by
  rw [splitRest, splitOnce_single_none.2 h]

theorem not_mem_splitRest (rest : Text) : '?' ∉ (splitRest rest).1 := by
  rw [splitRest]
  cases h : splitOnce ['?'] rest with
  | none => exact splitOnce_single_none.1 h
  | some halves => exact (splitOnce_single.1 h).1

/-- **The URLs that parse, and what they parse to.** -/
theorem fromStr_eq_ok {s : Text} {url : TransportUrl} :
    fromStr s = .ok url ↔ ∃ rest, s = url.scheme.asStr ++ schemeEnd ++ rest ∧
      (splitRest rest).1 = url.target ∧ checkTarget url.scheme url.target = .ok () ∧
      parseQuery (splitRest rest).2 = .ok url.query := by
  constructor
  · intro h
    rw [fromStr] at h
    split_ifs at h with hnil
    split at h
    · cases h
    · rename_i schemePart rest hsplit
      split_ifs at h with hscheme
      obtain ⟨scheme, hparse, h⟩ := bind_eq_ok.1 h
      dsimp only at h
      obtain ⟨u, hcheck, h⟩ := bind_eq_ok.1 h
      obtain ⟨query, hquery, h⟩ := bind_eq_ok.1 h
      obtain rfl := Except.ok.inj h
      refine ⟨rest, ?_, rfl, hcheck, ?_⟩
      · rw [splitOnce_eq_append hsplit, TransportScheme.fromStr_eq_ok.1 hparse]
      · rw [← parseQueryPart_eq]
        exact hquery
  · rintro ⟨rest, rfl, htarget, hcheck, hquery⟩
    have hnil : ¬ url.scheme.asStr ++ schemeEnd ++ rest = [] := by
      simp [url.scheme.asStr_ne_nil]
    have hsplit : splitOnce schemeEnd (url.scheme.asStr ++ schemeEnd ++ rest)
        = some (url.scheme.asStr, rest) :=
      splitOnce_append _ _ url.scheme.colon_not_mem_asStr
    rw [fromStr, if_neg hnil, hsplit]
    dsimp only
    rw [if_neg url.scheme.asStr_ne_nil, TransportScheme.fromStr_asStr]
    simp only [ok_bind, htarget, hcheck, parseQueryPart_eq, hquery]

/-- A URL with a TCP target and no query parses when the target is valid. -/
theorem exists_fromStr_tcp {t : Text} (hquery : '?' ∉ t) :
    (∃ url, fromStr (TransportScheme.asStr .tcp ++ schemeEnd ++ t) = .ok url) ↔
      validateTcpTarget t = .ok () := by
  constructor
  · rintro ⟨url, hurl⟩
    obtain ⟨rest, hrest, htarget, hcheck, -⟩ := fromStr_eq_ok.1 hurl
    have hsplit : splitOnce schemeEnd (TransportScheme.asStr .tcp ++ schemeEnd ++ t)
        = some (TransportScheme.asStr .tcp, t) :=
      splitOnce_append _ _ (TransportScheme.colon_not_mem_asStr .tcp)
    rw [hrest, schemeEnd, splitOnce_append _ _ url.scheme.colon_not_mem_asStr] at hsplit
    obtain ⟨hscheme, rfl⟩ := Prod.mk.inj (Option.some.inj hsplit)
    have htcp : url.scheme = .tcp := by
      have := TransportScheme.fromStr_asStr url.scheme
      rw [hscheme, TransportScheme.fromStr_asStr] at this
      exact (Except.ok.inj this).symm
    rw [splitRest_of_not_mem hquery] at htarget
    rw [show rest = url.target from htarget]
    exact (checkTarget_eq_ok.1 hcheck).2 htcp
  · intro hvalid
    have hcheck : checkTarget .tcp t = .ok () := by
      refine checkTarget_eq_ok.2 ⟨?_, fun _ => hvalid⟩
      rintro rfl
      cases hvalid
    refine ⟨⟨.tcp, t, []⟩, fromStr_eq_ok.2 ⟨t, rfl, ?_, hcheck, ?_⟩⟩
    · rw [splitRest_of_not_mem hquery]
    · rw [splitRest_of_not_mem hquery]
      rfl

end TransportUrl

end Dsline
