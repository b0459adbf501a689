import Dsline.Transport.Url
/-!
# TCP targets

The validator takes the port from behind the last colon of the target. A
target of the form `host:port` or `host:port/path` has its port behind the
first one. `Misread` is where that tells the two apart.
-/

namespace Dsline

open Split

/-- A string of digits that denotes a port. -/
def IsPort (text : Text) : Prop := IsDigits text ∧ digitsValue text ≤ 65535

/-- A host name: not empty, and without a colon or a slash. -/
def IsHost (text : Text) : Prop := text ≠ [] ∧ ':' ∉ text ∧ '/' ∉ text

/-- `host:port/path`. -/
def IsHostPortPath (target : Text) : Prop :=
  ∃ host port path, target = host ++ ':' :: port ++ '/' :: path ∧ IsHost host ∧ IsPort port

/-- **The TCP targets**: `host:port` or `host:port/path`. -/
def IsTcpTarget (target : Text) : Prop :=
  (∃ host port, target = host ++ ':' :: port ∧ IsHost host ∧ IsPort port) ∨ IsHostPortPath target

/-- A port to the validator: a sign may come first. -/
def PortAccepted (text : Text) : Prop := IsPort (withoutPlus text)

/-- **The targets the validator gets wrong**, by what stands before the last
colon and what stands between it and the next slash: a host with a signed
port; a string that is neither a host nor a target, with a port; a target,
with no port. -/
def Misread (target : Text) : Prop :=
  ∃ front back, target = front ++ ':' :: back ∧ ':' ∉ back ∧
    ((IsHost front ∧ (upTo '/' back).head? = some '+' ∧ PortAccepted (upTo '/' back)) ∨
      (front ≠ [] ∧ ¬ IsHost front ∧ ¬ IsHostPortPath front ∧ PortAccepted (upTo '/' back)) ∨
      (IsHostPortPath front ∧ ¬ PortAccepted (upTo '/' back)))

theorem parseU16_isSome_iff {text : Text} : (parseU16 text).isSome ↔ PortAccepted text := by
  rw [parseU16_isSome, PortAccepted, IsPort]
  exact and_congr_right fun _ => Nat.lt_succ_iff

theorem PortAccepted.ne_nil {text : Text} (h : PortAccepted text) : text ≠ [] := by
  rintro rfl
  exact h.1.1 rfl

theorem IsPort.not_plus {text : Text} (h : IsPort text) : text.head? ≠ some '+' := by
  cases text with
  | nil => simp
  | cons c text =>
      rintro hc
      obtain rfl := Option.some.inj hc
      exact not_isDigits_plus text h.1

/-- Without a sign the validator accepts the ports. -/
theorem portAccepted_iff {text : Text} (h : text.head? ≠ some '+') :
    PortAccepted text ↔ IsPort text := by
  rw [PortAccepted, withoutPlus_of_ne h]

/-- No colon and no slash is a digit. -/
theorem IsPort.not_mem {text : Text} {c : Char} (h : IsPort text) (hc : c.isDigit = false) :
    c ∉ text := by
  intro hmem
  have := List.all_eq_true.1 h.1.2 c hmem
  rw [hc] at this
  cases this

/-- **What the validator accepts**, by the last colon. -/
theorem validateTcpTarget_eq_ok {front back : Text} (hback : ':' ∉ back) :
    validateTcpTarget (front ++ ':' :: back) = .ok () ↔
      front ≠ [] ∧ PortAccepted (upTo '/' back) := by
  rw [validateTcpTarget, splitLast_eq_some.2 ⟨hback, rfl⟩]
  dsimp only
  have hnone : (parseU16 (upTo '/' back)).isNone = true ↔ ¬ PortAccepted (upTo '/' back) := by
    rw [← parseU16_isSome_iff, ← Option.not_isSome, Bool.not_eq_true', Bool.not_eq_true]
  split_ifs with hfront hport
  · simp [hfront]
  · simp only [false_iff, not_and]
    rcases hport with hnil | hport
    · exact fun _ h => h.ne_nil hnil
    · exact fun _ => hnone.1 hport
  · simp only [true_iff]
    exact ⟨hfront, not_not.1 fun h => (not_or.1 hport).2 (hnone.2 h)⟩

theorem validateTcpTarget_no_colon {target : Text} (h : ':' ∉ target) :
    validateTcpTarget target ≠ .ok () := by
  rw [validateTcpTarget, splitLast_none.2 h]
  simp

/-- **The form of a target, by its last colon**: the colon before the port,
or one of the path. -/
theorem isTcpTarget_iff {front back : Text} (hback : ':' ∉ back) :
    IsTcpTarget (front ++ ':' :: back) ↔
      (IsHost front ∧ IsPort (upTo '/' back)) ∨ IsHostPortPath front := by
  constructor
  · rintro (⟨host, port, htarget, hhost, hport⟩ | ⟨host, port, path, htarget, hhost, hport⟩)
    · obtain ⟨rfl, rfl⟩ := append_cons_inj htarget hback (hport.not_mem (by decide))
      rw [upTo_of_not_mem (hport.not_mem (by decide))]
      exact .inl ⟨hhost, hport⟩
    · by_cases hpath : ':' ∈ path
      · -- the last colon is one of the path
        obtain ⟨lead, tail, rfl, htail⟩ := exists_last hpath
        have htarget' : front ++ ':' :: back
            = (host ++ ':' :: port ++ '/' :: lead) ++ ':' :: tail := by
          rw [htarget]
          simp
        obtain ⟨rfl, rfl⟩ := append_cons_inj htarget' hback htail
        exact .inr ⟨host, port, lead, rfl, hhost, hport⟩
      · have hmem : ':' ∉ port ++ '/' :: path := by
          simp only [List.mem_append, List.mem_cons, not_or]
          exact ⟨hport.not_mem (by decide), by decide, hpath⟩
        have htarget' : front ++ ':' :: back = host ++ ':' :: (port ++ '/' :: path) := by
          rw [htarget]
          simp
        obtain ⟨rfl, rfl⟩ := append_cons_inj htarget' hback hmem
        rw [upTo_append (hport.not_mem (by decide))]
        exact .inl ⟨hhost, hport⟩
  · rintro (⟨hhost, hport⟩ | ⟨host, port, path, rfl, hhost, hport⟩)
    · obtain ⟨rest, hrest, rfl | ⟨path, rfl⟩⟩ := upTo_append_rest '/' back
      · refine .inl ⟨front, upTo '/' back, ?_, hhost, hport⟩
        rw [List.append_nil] at hrest
        rw [← hrest]
      · refine .inr ⟨front, upTo '/' back, path, ?_, hhost, hport⟩
        conv_lhs => rw [hrest]
        simp
    · exact .inr ⟨host, port, path ++ ':' :: back, by simp, hhost, hport⟩

/-- A string before the last colon that is a target has a colon. -/
theorem IsHostPortPath.not_isHost {target : Text} (h : IsHostPortPath target) :
    ¬ IsHost target := by
  obtain ⟨host, port, path, rfl, -, -⟩ := h
  exact fun hhost => hhost.2.1 (by simp)

theorem IsHostPortPath.ne_nil {target : Text} (h : IsHostPortPath target) : target ≠ [] := by
  obtain ⟨host, port, path, rfl, -, -⟩ := h
  simp

theorem misread_iff {front back : Text} (hback : ':' ∉ back) :
    Misread (front ++ ':' :: back) ↔
      (IsHost front ∧ (upTo '/' back).head? = some '+' ∧ PortAccepted (upTo '/' back)) ∨
      (front ≠ [] ∧ ¬ IsHost front ∧ ¬ IsHostPortPath front ∧ PortAccepted (upTo '/' back)) ∨
      (IsHostPortPath front ∧ ¬ PortAccepted (upTo '/' back)) := by
  constructor
  · rintro ⟨front', back', htarget, hback', h⟩
    obtain ⟨rfl, rfl⟩ := append_cons_inj htarget hback hback'
    exact h
  · exact fun h => ⟨front, back, rfl, hback, h⟩

/-- **The validator accepts the targets, but for those it misreads.** -/
theorem validateTcpTarget_iff_isTcpTarget (target : Text) :
    (validateTcpTarget target = .ok () ↔ IsTcpTarget target) ↔ ¬ Misread target := by
  by_cases hcolon : ':' ∈ target
  · obtain ⟨front, back, rfl, hback⟩ := exists_last hcolon
    rw [validateTcpTarget_eq_ok hback, isTcpTarget_iff hback, misread_iff hback]
    by_cases hhost : IsHost front
    · have hpath : ¬ IsHostPortPath front := fun h => h.not_isHost hhost
      by_cases hplus : (upTo '/' back).head? = some '+'
      · have hport : ¬ IsPort (upTo '/' back) := fun h => h.not_plus hplus
        simp [hhost, hhost.1, hpath, hplus, hport]
      · simp [hhost, hhost.1, hpath, hplus, portAccepted_iff hplus]
    -- a front that is itself a target: the colon behind it is one of the path
    · by_cases hpath : IsHostPortPath front
      · simp [hhost, hpath, hpath.ne_nil]
      · simp [hhost, hpath]
  · have hform : ¬ IsTcpTarget target := by
      rintro (⟨host, port, rfl, -⟩ | ⟨host, port, path, rfl, -⟩) <;> simp at hcolon
    have hread : ¬ Misread target := by
      rintro ⟨front, back, rfl, -⟩
      simp at hcolon
    simp [validateTcpTarget_no_colon hcolon, hform, hread]

/-- **The URLs with a TCP target that parse.** They are those whose target has
the form `host:port` or `host:port/path`, exactly when the validator does not
misread the target. -/
theorem fromStr_tcp_iff {t : Text} (hquery : '?' ∉ t) :
    ((∃ url, TransportUrl.fromStr (TransportScheme.asStr .tcp ++ schemeEnd ++ t) = .ok url) ↔
      IsTcpTarget t) ↔ ¬ Misread t := by
  rw [TransportUrl.exists_fromStr_tcp hquery]
  exact validateTcpTarget_iff_isTcpTarget t

/-- A target whose path holds a colon, and one whose path does not. -/
theorem fromStr_tcp_iff_path :
    ((∃ url, TransportUrl.fromStr (TransportScheme.asStr .tcp ++ schemeEnd ++
        ['h', ':', '8', '0', '/', 'a']) = .ok url) ↔
      IsTcpTarget ['h', ':', '8', '0', '/', 'a']) ↔ ¬ Misread ['h', ':', '8', '0', '/', 'a'] :=
  fromStr_tcp_iff (by decide)

/-- **A colon in the path.** `host:port/path` with a path that holds a colon
is refused: the validator takes what follows that colon for the port. -/
theorem fromStr_tcp_rejects_path :
    ¬ ∀ t : Text, '?' ∉ t →
      ((∃ url, TransportUrl.fromStr (TransportScheme.asStr .tcp ++ schemeEnd ++ t) = .ok url) ↔
        IsTcpTarget t) := by
  intro h
  have hform : IsTcpTarget ['h', ':', '8', '0', '/', 'a', ':', 'b'] :=
    .inr ⟨['h'], ['8', '0'], ['a', ':', 'b'], rfl, by unfold IsHost; decide,
      by unfold IsPort; decide⟩
  obtain ⟨url, hurl⟩ := (h _ (by decide)).2 hform
  have hrejected : TransportUrl.fromStr (TransportScheme.asStr .tcp ++ schemeEnd ++
      ['h', ':', '8', '0', '/', 'a', ':', 'b']) = .error (.invalidPort ['b']) := by
    decide
  rw [hrejected] at hurl
  cases hurl

end Dsline
