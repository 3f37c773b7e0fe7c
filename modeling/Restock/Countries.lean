/-
# Country codes (`core/countries.py`)

A country code is whatever two letters are left after `strip` and `upper`,
with the alias `UK` read as `GB`. `ZZ` is the code of a country that could not
be read; `EU` stands for the whole of the configured member set.

Normalising is idempotent (`isNormalized_of_normalize`), and a member list that
is accepted holds normalised codes, none twice, none of them `EU` or `ZZ`
(`normalizeCountryListForEuMembers_spec`).
-/
import Restock.Lib.Checked
import Restock.Lib.PyText

namespace Restock

open PyText

/-! ### Normalised codes -/

/-- `COUNTRY_CODE_ALIASES`. -/
def countryCodeAliases : List (String × String) := [("UK", "GB")]

/-- `COUNTRY_CODE_ALIASES.get(code, code)`. -/
def applyAlias (code : String) : String := (countryCodeAliases.lookup code).getD code

theorem applyAlias_eq (code : String) : applyAlias code = if code = "UK" then "GB" else code := by
  unfold applyAlias countryCodeAliases
  by_cases h : code = "UK"
  · simp [h]
  · simp [List.lookup_cons, h, beq_eq_false_iff_ne.mpr h]

/-- `NON_EU_MEMBER_CODES`. -/
def nonEuMemberCodes : List String := ["EU", "ZZ"]

/-- `BUILTIN_COUNTRY_NAMES`. -/
def builtinCountryNames : List (String × String) :=
  [("EU", "欧盟"), ("ZZ", "无法识别国家"), ("CN", "中国"), ("US", "美国"), ("CA", "加拿大"), ("MX", "墨西哥"),
    ("GB", "英国"), ("CZ", "捷克"), ("DE", "德国"), ("FR", "法国"), ("IT", "意大利"), ("ES", "西班牙"),
    ("IN", "印度"), ("JP", "日本"), ("AU", "澳大利亚"), ("AT", "奥地利"), ("CH", "瑞士"), ("CY", "塞浦路斯"),
    ("DK", "丹麦"), ("EE", "爱沙尼亚"), ("FI", "芬兰"), ("LT", "立陶宛"), ("LV", "拉脱维亚"), ("MT", "马耳他"),
    ("SI", "斯洛文尼亚"), ("AE", "阿联酋"), ("TR", "土耳其"), ("SG", "新加坡"), ("BR", "巴西"), ("NL", "荷兰"),
    ("RO", "罗马尼亚"), ("SA", "沙特阿拉伯"), ("SE", "瑞典"), ("PL", "波兰"), ("BE", "比利时"), ("IE", "爱尔兰")]

section Codes

variable (U : CharTable)

/-- `country_label`; an override with an empty name falls back to the builtin one. -/
def countryLabel (code : String) (overrides : String → Option String) : String :=
  let normalized := applyAlias (upper U (strip U code))
  match ((overrides normalized).bind nonEmpty).or (builtinCountryNames.lookup normalized) with
  | none => normalized
  | some name => s!"{normalized} - {name}"

def isValidObservedCountryCode (value : JsonValue) : Bool :=
  let code := upper U (strip U value.textOrEmpty)
  code.length == 2 && isAlpha U code

def normalizeObservedCountryCode (value : JsonValue) : Option String :=
  let code := upper U (strip U value.textOrEmpty)
  if !isValidObservedCountryCode U (.str code) then none
  else some (applyAlias code)

/-- A normalised code counts in the engine and in the metrics unless it is the
`ZZ` of an unknown country. -/
def normalizeReportableCountryCode (value : JsonValue) : Option String :=
  match normalizeObservedCountryCode U value with
  | none => none
  | some code => if code = "ZZ" then none else some code

def isReportableCountryCode (value : JsonValue) :
    Bool := (normalizeReportableCountryCode U value).isSome

def normalizeSourceCountryOrUnknown (value : JsonValue) : String :=
  (normalizeObservedCountryCode U value).getD "ZZ"

/-- One round of the loop of `normalize_country_list_for_eu_members`. -/
def euMemberStep (normalized : List String) (item : JsonValue) : Except String (List String) :=
  let rawCode := upper U (strip U item.textOrEmpty)
  if rawCode = "" then .ok normalized
  else if rawCode.length ≠ 2 ∨ !isAlpha U rawCode then
    .error s!"EU 成员国国家码无效: {item.toText}"
  else
    let code := applyAlias rawCode
    if code ∈ nonEuMemberCodes then .error s!"{code} 不能加入 EU 成员国"
    else if code ∈ normalized then .ok normalized
    else .ok (normalized ++ [code])

/-- The accepted members in order, none twice; `seen` is the list so far. -/
def normalizeCountryListForEuMembers : Option (List JsonValue) → Except String (List String)
  | none => .ok []
  | some items => items.foldlM (euMemberStep U) []

/-- A code that normalising leaves as it is. -/
def IsNormalized (code : String) : Prop := normalizeObservedCountryCode U (.str code) = some code

instance (code : String) : Decidable (IsNormalized U code) := by unfold IsNormalized; infer_instance

/-- Two letters in upper case, not an alias, are a normalised code. -/
theorem isNormalized_of {code : String} (hlen : code.length = 2) (halpha : isAlpha U code = true)
    (hup : ∀ c ∈ code.toList, U.upper c = [c]) (halias : applyAlias code = code) :
    IsNormalized U code := by
  have hsp : strip U code = code := strip_eq_self (trimmed_of_isAlpha halpha)
  have hupper : upper U code = code := upper_eq_self hup
  simp [IsNormalized, normalizeObservedCountryCode, isValidObservedCountryCode, hsp, hupper, hlen,
    halpha, halias]

theorem isAlpha_of_capitals {code : String} (hlen : code.length = 2)
    (hcap : code.toList.all Char.isUpper = true) : isAlpha U code = true := by
  simp only [isAlpha, Bool.and_eq_true, List.all_eq_true]
  constructor
  · cases h : code.toList with
    | nil => rw [← String.length_toList, h] at hlen; simp at hlen
    | cons => rfl
  · exact fun c hc => (capital_spec (List.all_eq_true.mp hcap c hc)).2

/-- Two ASCII capitals other than `UK` are a normalised code. -/
theorem isNormalized_of_capitals {code : String} (hlen : code.length = 2)
    (hcap : code.toList.all Char.isUpper = true) (hUK : code ≠ "UK") : IsNormalized U code :=
  isNormalized_of U hlen (isAlpha_of_capitals U hlen hcap)
    (fun c hc => (capital_spec (List.all_eq_true.mp hcap c hc)).1)
    (by rw [applyAlias_eq, if_neg hUK])

theorem builtinCountryNames_normalized : ∀ entry ∈ builtinCountryNames, IsNormalized U entry.1 := by
  have h : ∀ entry ∈ builtinCountryNames,
      entry.1.length = 2 ∧ entry.1.toList.all Char.isUpper = true ∧ entry.1 ≠ "UK" := by decide
  exact fun entry he => isNormalized_of_capitals U (h entry he).1 (h entry he).2.1 (h entry he).2.2

theorem isNormalized_EU : IsNormalized U "EU" :=
  isNormalized_of_capitals U (by decide) (by decide) (by decide)

theorem isNormalized_ZZ : IsNormalized U "ZZ" :=
  isNormalized_of_capitals U (by decide) (by decide) (by decide)

theorem isNormalized_GB : IsNormalized U "GB" :=
  isNormalized_of_capitals U (by decide) (by decide) (by decide)

theorem isReportable_of_isNormalized {code : String} (h : IsNormalized U code) (hZZ : code ≠ "ZZ") :
    isReportableCountryCode U (.str code) = true := by
  unfold isReportableCountryCode normalizeReportableCountryCode
  rw [h]
  simp [hZZ]

theorem isReportable_empty : isReportableCountryCode U (.str "") = false := by
  have hupper : upper U (strip U "") = "" := by
    simp [upper, strip]
  have hvalid : isValidObservedCountryCode U (.str "") = false := by
    simp [isValidObservedCountryCode, hupper]
  unfold isReportableCountryCode normalizeReportableCountryCode normalizeObservedCountryCode
  simp only [JsonValue.textOrEmpty_str, hupper, hvalid]
  rfl

theorem ne_empty_of_reportable {U : CharTable} {c : String}
    (h : isReportableCountryCode U (.str c) = true) : c ≠ "" := by
  intro he
  rw [he, isReportable_empty] at h
  exact Bool.false_ne_true h

theorem isReportable_US : isReportableCountryCode U (.str "US") = true :=
  isReportable_of_isNormalized U (isNormalized_of_capitals U (by decide) (by decide) (by decide))
    (by decide)

theorem isReportable_EU : isReportableCountryCode U (.str "EU") = true :=
  isReportable_of_isNormalized U (isNormalized_EU U) (by decide)

/-- An upper-cased text of two letters is a normalised code up to its alias. -/
theorem isNormalized_applyAlias {s : String} (hlen : (upper U s).length = 2)
    (halpha : isAlpha U (upper U s) = true) : IsNormalized U (applyAlias (upper U s)) := by
  rw [applyAlias_eq]
  split_ifs with h
  · exact isNormalized_GB U
  · exact isNormalized_of U hlen halpha (fun c hc => upper_of_mem_upper hc)
      (by rw [applyAlias_eq, if_neg h])

/-- Validating the stripped and upper-cased text reads that text itself. -/
theorem isValid_upper_strip (s : String) :
    isValidObservedCountryCode U (.str (upper U (strip U s))) =
    ((upper U (strip U s)).length == 2 && isAlpha U (upper U (strip U s))) := by
  simp only [isValidObservedCountryCode, JsonValue.textOrEmpty_str, strip_upper_strip, upper_upper]

/-- **Normalising is idempotent.** -/
theorem isNormalized_of_normalize {value : JsonValue} {code : String}
    (h : normalizeObservedCountryCode U value = some code) : IsNormalized U code := by
  simp only [normalizeObservedCountryCode, isValid_upper_strip] at h
  split_ifs at h with hv
  simp only [Bool.not_eq_true', Bool.not_eq_false, Bool.and_eq_true, beq_iff_eq] at hv
  rw [← Option.some.inj h]
  exact isNormalized_applyAlias U hv.1 hv.2

theorem isNormalized_sourceCountry (value : JsonValue) :
    IsNormalized U (normalizeSourceCountryOrUnknown U value) := by
  unfold normalizeSourceCountryOrUnknown
  cases h : normalizeObservedCountryCode U value with
  | none => exact isNormalized_ZZ U
  | some code => exact isNormalized_of_normalize U h

/-- A normalised code is its own `strip` and `upper`, has two letters, and is no alias. -/
theorem IsNormalized.facts {code : String} (h : IsNormalized U code) :
    upper U (strip U code) = code ∧ code.length = 2 ∧ isAlpha U code = true ∧
    applyAlias code = code := by
  simp only [IsNormalized, normalizeObservedCountryCode, isValid_upper_strip,
    JsonValue.textOrEmpty_str] at h
  split_ifs at h with hv
  simp only [Bool.not_eq_true', Bool.not_eq_false, Bool.and_eq_true, beq_iff_eq] at hv
  have hc := Option.some.inj h
  have hne : upper U (strip U code) ≠ "UK" := by
    intro hUK
    rw [hUK, applyAlias_eq, if_pos rfl] at hc
    have hGB : upper U (strip U "GB") = "GB" := by
      have hcap : "GB".toList.all Char.isUpper = true := by decide
      rw [strip_eq_self (trimmed_of_isAlpha (isAlpha_of_capitals U (by decide) hcap)),
        upper_eq_self fun c hc => (capital_spec (List.all_eq_true.mp hcap c hc)).1]
    rw [← hc, hGB] at hUK
    exact absurd hUK (by decide)
  rw [applyAlias_eq, if_neg hne] at hc
  rw [hc] at hv hne
  exact ⟨hc, hv.1, hv.2, by rw [applyAlias_eq, if_neg hne]⟩

theorem normalizeObservedCountryCode_empty : normalizeObservedCountryCode U (.str "") = none := by
  have h : upper U (strip U "") = "" := by simp [strip, upper]
  simp [normalizeObservedCountryCode, isValidObservedCountryCode, h]

/-- What a round of the member loop keeps. -/
structure EuMembers (members : List String) : Prop where
  normalized : ∀ code ∈ members, IsNormalized U code
  not_special : ∀ code ∈ members, code ∉ nonEuMemberCodes
  nodup : members.Nodup

theorem euMemberStep_keeps {members members' : List String} {item : JsonValue}
    (h : EuMembers U members) (hs : euMemberStep U members item = .ok members') :
    EuMembers U members' := by
  simp only [euMemberStep] at hs
  split_ifs at hs with h1 h2 h3 h4
  · exact Except.ok.inj hs ▸ h
  · exact Except.ok.inj hs ▸ h
  · rw [← Except.ok.inj hs]
    simp only [not_or, not_not, Bool.not_eq_true', Bool.not_eq_false] at h2
    refine ⟨fun code hc => ?_, fun code hc => ?_, ?_⟩
    · rcases List.mem_append.mp hc with hc | hc
      · exact h.normalized code hc
      · rw [List.mem_singleton.mp hc]
        exact isNormalized_applyAlias U h2.1 h2.2
    · rcases List.mem_append.mp hc with hc | hc
      · exact h.not_special code hc
      · rw [List.mem_singleton.mp hc]
        exact h3
    · refine List.nodup_append.mpr ⟨h.nodup, List.nodup_singleton _, fun a ha b hb => ?_⟩
      rw [List.mem_singleton.mp hb]
      exact fun he => h4 (he ▸ ha)

/-- **An accepted member list** holds normalised codes, none twice, neither `EU` nor `ZZ`. -/
theorem normalizeCountryListForEuMembers_spec {value : Option (List JsonValue)}
    {members : List String} (h : normalizeCountryListForEuMembers U value = .ok members) :
    EuMembers U members := by
  have h0 : EuMembers U [] := ⟨by simp, by simp, List.nodup_nil⟩
  cases value with
  | none => exact Except.ok.inj h ▸ h0
  | some items => exact Checked.foldlM_keeps (euMemberStep_keeps U) items h0 h

theorem euMemberStep_accepts {members : List String} {code : String} (hn : IsNormalized U code)
    (hs : code ∉ nonEuMemberCodes) (hnew : code ∉ members) :
    euMemberStep U members (.str code) = .ok (members ++ [code]) := by
  obtain ⟨hup, hlen, halpha, halias⟩ := hn.facts
  have hne : code ≠ "" := by rintro rfl; simp at hlen
  simp [euMemberStep, hup, hlen, halpha, halias, hne, hs, hnew]

/-- A member list that was accepted is accepted again, unchanged. -/
theorem normalizeCountryListForEuMembers_self {members : List String} (h : EuMembers U members) :
    normalizeCountryListForEuMembers U (some (members.map .str)) = .ok members := by
  have key : ∀ rest acc : List String,
      (∀ code ∈ rest, IsNormalized U code ∧ code ∉ nonEuMemberCodes) → (acc ++ rest).Nodup →
      (rest.map JsonValue.str).foldlM (euMemberStep U) acc = .ok (acc ++ rest) := by
    intro rest
    induction rest with
    | nil => intro acc _ _; simp [pure, Except.pure]
    | cons code rest ih =>
      intro acc hr hnd
      obtain ⟨hn, hsp⟩ := hr code List.mem_cons_self
      have hnew : code ∉ acc :=
        fun hm => (List.nodup_append.mp hnd).2.2 code hm code List.mem_cons_self rfl
      rw [List.map_cons, List.foldlM_cons, euMemberStep_accepts U hn hsp hnew]
      have := ih (acc ++ [code]) (fun c hc => hr c (List.mem_cons_of_mem _ hc)) (by simpa using hnd)
      rwa [List.append_assoc] at this
  exact key members [] (fun c hc => ⟨h.normalized c hc, h.not_special c hc⟩) h.nodup

end Codes

end Restock
