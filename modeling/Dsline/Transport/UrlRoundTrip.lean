import Dsline.Transport.Url
import Mathlib.Data.List.Flatten
/-!
# Printing a URL and parsing it

A URL that was parsed prints as its normal form: the same text without the
empty parts of its query. Each of the three splits of the parser finds the
same place in the printed text, so the URL is read back.
-/

namespace Dsline

open Split Outcome

/-- The parts of a query that are not empty. -/
def queryParts (query : Text) : List Text := (query.splitOn '&').filter (· ≠ [])

/-- Parts, joined to the query of a URL; without parts there is no question
mark. -/
def joinParts : List Text → Text
  | [] => []
  | parts => '?' :: ['&'].intercalate parts

/-- **A URL without the empty parts of its query.** -/
def normalForm (s : Text) : Text :=
  match splitOnce ['?'] s with
  | none => s
  | some (front, query) => front ++ joinParts (queryParts query)

/-- The value of the first part of a URL's query with a given key. -/
def firstValue (s key : Text) : Option Text :=
  match splitOnce ['?'] s with
  | none => none
  | some (_, query) =>
      ((queryParts query).find? fun part => upTo '=' part = key).map (·.drop (key.length + 1))

/-- The part a pair is printed as. -/
def partOf (pair : Text × Text) : Text := pair.1 ++ '=' :: pair.2

/-- A pair as the parser makes them: a key, up to the first equals sign. -/
def KeyedPair (pair : Text × Text) : Prop := pair.1 ≠ [] ∧ '=' ∉ pair.1

theorem partOf_ne_nil (pair : Text × Text) : partOf pair ≠ [] := by simp [partOf]

theorem upTo_partOf {pair : Text × Text} (h : KeyedPair pair) : upTo '=' (partOf pair) = pair.1 :=
  upTo_append h.2

theorem splitOnce_partOf {pair : Text × Text} (h : KeyedPair pair) :
    splitOnce ['='] (partOf pair) = some pair :=
  splitOnce_single.2 ⟨h.2, rfl⟩

theorem drop_partOf (pair : Text × Text) : (partOf pair).drop (pair.1.length + 1) = pair.2 := by
  rw [partOf, ← List.drop_drop, List.drop_left]
  rfl

/-- One part that is not empty makes one pair. -/
theorem parseParts_cons_eq_ok {part : Text} {parts : List Text} {pairs : List (Text × Text)}
    (hnil : part ≠ []) : parseParts (part :: parts) = .ok pairs ↔
      ∃ pair tail, part = partOf pair ∧ KeyedPair pair ∧ parseParts parts = .ok tail ∧
        pairs = pair :: tail := by
  rw [parseParts, if_neg hnil]
  constructor
  · intro h
    split at h
    · cases h
    · rename_i k v hsplit
      obtain ⟨hk, hpart⟩ := splitOnce_single.1 hsplit
      split_ifs at h with hkey
      obtain ⟨tail, htail, h⟩ := bind_eq_ok.1 h
      exact ⟨(k, v), tail, hpart, ⟨hkey, hk⟩, htail, (Except.ok.inj h).symm⟩
  · rintro ⟨pair, tail, rfl, hpair, htail, rfl⟩
    rw [splitOnce_partOf hpair]
    dsimp only
    rw [if_neg hpair.1, htail]
    rfl

/-- **The pairs of a query**: one for each of its parts that is not empty. -/
theorem parseParts_eq_ok {parts : List Text} {pairs : List (Text × Text)} :
    parseParts parts = .ok pairs ↔
      parts.filter (· ≠ []) = pairs.map partOf ∧ ∀ pair ∈ pairs, KeyedPair pair := by
  induction parts generalizing pairs with
  | nil =>
      rw [parseParts, Except.ok.injEq]
      constructor
      · rintro rfl
        simp
      · rintro ⟨h, -⟩
        exact (List.map_eq_nil_iff.1 h.symm).symm
  | cons part parts ih =>
      by_cases hnil : part = []
      · rw [parseParts, if_pos hnil, ih, List.filter_cons_of_neg (by simp [hnil])]
      · rw [parseParts_cons_eq_ok hnil, List.filter_cons_of_pos (by simp [hnil])]
        constructor
        · rintro ⟨pair, tail, rfl, hpair, htail, rfl⟩
          obtain ⟨hparts, hkeyed⟩ := ih.1 htail
          rw [List.map_cons, ← hparts]
          exact ⟨rfl, List.forall_mem_cons.2 ⟨hpair, hkeyed⟩⟩
        · rintro ⟨hparts, hkeyed⟩
          cases pairs with
          | nil => cases hparts
          | cons pair pairs =>
              rw [List.map_cons] at hparts
              obtain ⟨hpart, htail⟩ := List.cons.inj hparts
              obtain ⟨hpair, hrest⟩ := List.forall_mem_cons.1 hkeyed
              exact ⟨pair, pairs, hpart, hpair, ih.2 ⟨htail, hrest⟩, rfl⟩

theorem parseQuery_eq_ok {query : Text} {pairs : List (Text × Text)} :
    parseQuery query = .ok pairs ↔
      queryParts query = pairs.map partOf ∧ ∀ pair ∈ pairs, KeyedPair pair :=
  parseParts_eq_ok

theorem ampersand_not_mem_queryParts {query part : Text} (h : part ∈ queryParts query) :
    '&' ∉ part :=
  not_mem_of_mem_splitOn (List.mem_filter.1 h).1

/-- The printer joins the parts of the pairs. -/
theorem printQuery_eq (pairs : List (Text × Text)) :
    TransportUrl.printQuery pairs = joinParts (pairs.map partOf) := by
  cases pairs with
  | nil => rfl
  | cons pair pairs =>
      have hjoin : ∀ (head : Text) (pairs : List (Text × Text)),
          ['&'].intercalate (head :: pairs.map partOf)
            = head ++ pairs.flatMap fun pair => '&' :: pair.1 ++ '=' :: pair.2 := by
        intro head pairs
        induction pairs generalizing head with
        | nil => simp
        | cons pair pairs ih =>
            rw [List.map_cons, List.intercalate_cons_cons, ih, List.flatMap_cons]
            simp [partOf]
      rw [List.map_cons, joinParts, hjoin]
      · simp [TransportUrl.printQuery, partOf]
      · simp

/-- **Joined parts split again.** -/
theorem queryParts_joinParts (parts : List Text) (hamp : ∀ part ∈ parts, '&' ∉ part)
    (hnil : ∀ part ∈ parts, part ≠ []) {target : Text} (htarget : '?' ∉ target) :
    ∃ query, TransportUrl.splitRest (target ++ joinParts parts) = (target, query) ∧
      queryParts query = parts := by
  cases parts with
  | nil =>
      refine ⟨[], ?_, rfl⟩
      rw [joinParts, List.append_nil, TransportUrl.splitRest_of_not_mem htarget]
  | cons part parts =>
      refine ⟨['&'].intercalate (part :: parts), ?_, ?_⟩
      · rw [joinParts, TransportUrl.splitRest_append htarget]
        simp
      · rw [queryParts, List.splitOn_intercalate '&' hamp (by simp), List.filter_eq_self]
        intro q hq
        simpa using hnil q hq

theorem question_not_mem_front (scheme : TransportScheme) : '?' ∉ scheme.asStr ++ schemeEnd := by
  rw [List.mem_append, not_or]
  exact ⟨scheme.question_not_mem_asStr, by decide⟩

/-- Looking a key up in the pairs is looking it up in their parts. -/
theorem find_partOf {pairs : List (Text × Text)} (hkeyed : ∀ pair ∈ pairs, KeyedPair pair)
    (key : Text) :
    ((pairs.map partOf).find? fun part => upTo '=' part = key).map (·.drop (key.length + 1))
      = (pairs.find? (·.1 = key)).map (·.2) := by
  induction pairs with
  | nil => rfl
  | cons pair pairs ih =>
      rw [List.map_cons, List.find?_cons, List.find?_cons,
        upTo_partOf (hkeyed _ List.mem_cons_self)]
      by_cases hkey : pair.1 = key
      · simp only [hkey, decide_true, Option.map_some]
        rw [← hkey, drop_partOf]
      · simp only [hkey, decide_false]
        exact ih fun q hq => hkeyed q (List.mem_cons_of_mem _ hq)

/-- **Printing a parsed URL gives its text without empty parts**, and each
split of the parser finds the same place in it again. -/
theorem TransportUrl.toUrlString_eq {s : Text} {url : TransportUrl} (h : fromStr s = .ok url) :
    url.toUrlString = normalForm s := by
  obtain ⟨rest, rfl, htarget, -, hquery⟩ := fromStr_eq_ok.1 h
  obtain ⟨hparts, -⟩ := parseQuery_eq_ok.1 hquery
  rw [toUrlString, printQuery_eq, ← hparts, ← htarget, normalForm,
    splitOnce_append_left (question_not_mem_front url.scheme)]
  cases hsplit : splitOnce ['?'] rest with
  | none =>
      rw [splitRest_of_not_mem (splitOnce_single_none.1 hsplit)]
      exact List.append_nil _
  | some halves =>
      obtain ⟨hmem, rfl⟩ := splitOnce_single.1 hsplit
      rw [splitRest_append hmem]
      rfl

/-- **The printed URL parses back.** -/
theorem TransportUrl.fromStr_toUrlString {s : Text} {url : TransportUrl}
    (h : fromStr s = .ok url) : fromStr url.toUrlString = .ok url := by
  obtain ⟨rest, -, htarget, hcheck, hquery⟩ := fromStr_eq_ok.1 h
  obtain ⟨hparts, hkeyed⟩ := parseQuery_eq_ok.1 hquery
  have hmem : '?' ∉ url.target := htarget ▸ not_mem_splitRest rest
  obtain ⟨query, hsplit, hagain⟩ := queryParts_joinParts (url.query.map partOf) (by
      rw [← hparts]
      exact fun part hpart => ampersand_not_mem_queryParts hpart)
    (by
      intro part hpart
      obtain ⟨pair, -, rfl⟩ := List.mem_map.1 hpart
      exact partOf_ne_nil pair) hmem
  refine fromStr_eq_ok.2 ⟨url.target ++ printQuery url.query, ?_, ?_, hcheck, ?_⟩
  · rw [toUrlString, List.append_assoc _ url.target]
  · rw [printQuery_eq, hsplit]
  · rw [printQuery_eq, hsplit]
    exact parseQuery_eq_ok.2 ⟨hagain, hkeyed⟩

/-- **A parameter is the value of the first part with its key.** -/
theorem TransportUrl.queryParam_eq {s : Text} {url : TransportUrl} (h : fromStr s = .ok url)
    (key : Text) : url.queryParam key = firstValue s key := by
  obtain ⟨rest, rfl, -, -, hquery⟩ := fromStr_eq_ok.1 h
  obtain ⟨hparts, hkeyed⟩ := parseQuery_eq_ok.1 hquery
  rw [queryParam, ← find_partOf hkeyed, ← hparts, firstValue,
    splitOnce_append_left (question_not_mem_front url.scheme)]
  cases hsplit : splitOnce ['?'] rest with
  | none =>
      rw [splitRest_of_not_mem (splitOnce_single_none.1 hsplit)]
      rfl
  | some halves =>
      obtain ⟨hmem, rfl⟩ := splitOnce_single.1 hsplit
      rw [splitRest_append hmem]
      rfl

/-- **Printing and parsing.** A URL that was parsed prints as its text
without the empty parts of the query, parses back from it, and looks a key up
as its first occurrence. -/
theorem TransportUrl.parsed_round_trip {s : Text} {url : TransportUrl} (h : fromStr s = .ok url) :
    fromStr url.toUrlString = .ok url ∧ url.toUrlString = normalForm s ∧
      ∀ key, url.queryParam key = firstValue s key :=
  ⟨fromStr_toUrlString h, toUrlString_eq h, queryParam_eq h⟩

/-- `shm://a?&k=v&&k==&` prints as `shm://a?k=v&k==`. -/
theorem TransportUrl.parsed_round_trip_parts :
    let url : TransportUrl := ⟨.shm, ['a'], [(['k'], ['v']), (['k'], ['='])]⟩
    let s : Text := ['s', 'h', 'm', ':', '/', '/', 'a', '?', '&', 'k', '=', 'v', '&', '&', 'k', '=',
      '=', '&']
    fromStr s = .ok url ∧ fromStr url.toUrlString = .ok url ∧ url.toUrlString = normalForm s ∧
      ∀ key, url.queryParam key = firstValue s key :=
  ⟨by decide, parsed_round_trip (by decide)⟩

end Dsline
