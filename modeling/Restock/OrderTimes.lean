/-
# The zone of an order (`core/timezone.py`)

A time without an offset is read in the zone of the order's marketplace and shown in it
again. The zone is looked up from the marketplace id, and from the country where the id
says nothing; a country without an entry falls back to Beijing. So does `EU`, which a
country becomes when it is a member.
-/
import Restock.CountryBackfill
import Restock.Lib.Zones

namespace Restock

open PyText

/-! ### Zones -/

def beijing : String := "Asia/Shanghai"

/-- `MARKETPLACE_ID_TO_COUNTRY`. -/
def marketplaceIdToCountry : List (String × String) :=
  [("ATVPDKIKX0DER", "US"), ("A2EUQ1WTGCTBG2", "CA"), ("A1AM78C64UM0Y8", "MX"),
    ("A1F83G8C2ARO7P", "GB"), ("A1PA6795UKMFR9", "DE"), ("A13V1IB3VIYZZH", "FR"),
    ("APJ6JRA9NG5V4", "IT"), ("A1RKKUPIHCS9HS", "ES"),
    ("A21TJRUUN4KGV", "IN"), ("A1VC38T7YXB528", "JP"), ("A39IBJ37TRP1C6", "AU"),
      ("A2VIGQ35RCS4UG", "AE"),
    ("A33AVAJ2PDY3EV", "TR"), ("A19VAU5U5O7RUS", "SG"), ("A2Q3Y263D00KWC", "BR"),
      ("A1805IZSGTT6HS", "NL"),
    ("A17E79C6D8DWNP", "SA"), ("A2NODRKZP88ZB9", "SE"), ("A1C3SOZRARQ6R3", "PL"),
      ("AMEN7PMS3EDWL", "BE"),
    ("A28R8C7NBKEWEA", "IE")]

/-- `COUNTRY_TO_TIMEZONE`. -/
def countryToTimezone : List (String × String) :=
  [("US", "America/Los_Angeles"), ("CA", "America/Toronto"), ("MX", "America/Mexico_City"),
    ("GB", "Europe/London"), ("CZ", "Europe/Prague"), ("DE", "Europe/Berlin"),
    ("FR", "Europe/Paris"), ("IT", "Europe/Rome"),
    ("ES", "Europe/Madrid"), ("NL", "Europe/Amsterdam"), ("RO", "Europe/Bucharest"),
      ("BE", "Europe/Brussels"),
    ("SE", "Europe/Stockholm"), ("PL", "Europe/Warsaw"), ("IE", "Europe/Dublin"),
      ("IN", "Asia/Kolkata"),
    ("JP", "Asia/Tokyo"), ("AU", "Australia/Sydney"), ("AT", "Europe/Vienna"),
      ("CH", "Europe/Zurich"),
    ("CY", "Asia/Nicosia"), ("DK", "Europe/Copenhagen"), ("EE", "Europe/Tallinn"),
      ("FI", "Europe/Helsinki"),
    ("LT", "Europe/Vilnius"), ("LV", "Europe/Riga"), ("MT", "Europe/Malta"),
      ("SI", "Europe/Ljubljana"),
    ("AE", "Asia/Dubai"), ("TR", "Europe/Istanbul"), ("SG", "Asia/Singapore"),
      ("BR", "America/Sao_Paulo"),
    ("SA", "Asia/Riyadh"), ("CN", "Asia/Shanghai")]

/-- A text of the program, or `None`. -/
def optionalText (value : Option String) : JsonValue := value.elim .null .str

section Zones

variable (U : CharTable)

def marketplaceToCountry (marketplaceId : Option String) : Option String :=
  (marketplaceId.bind nonEmpty).bind fun id =>
    (normalizeObservedCountryCode U (.str id)).or (marketplaceIdToCountry.lookup id)

/-- Unknown countries fall back to Beijing. -/
def countryToTz (country : Option String) : String :=
  match normalizeObservedCountryCode U (optionalText country) with
  | none => beijing
  | some code => (countryToTimezone.lookup code).getD beijing

def orderDisplayTimezone (marketplaceId countryCode : Option String) : String :=
  countryToTz U ((marketplaceToCountry U marketplaceId).or
    (normalizeObservedCountryCode U (optionalText countryCode)))

/-- The zone in which `parse_saihu_time` reads a time without an offset. -/
def sourceTz (marketplaceId : String) :
    String := countryToTz U (marketplaceToCountry U (some marketplaceId))

/-- The local time that is shown for a stored instant. -/
def toOrderDisplayTime (zones : String → ZoneRules) (value : ℤ)
    (marketplaceId countryCode : String) : ℤ :=
  (zones (orderDisplayTimezone U (some marketplaceId) (some countryCode))).toLocal value

end Zones

/-! ### The zone of a country -/

section Facts

variable {U : CharTable}

theorem marketplaceToCountry_normalized {code : String} (h : IsNormalized U code) :
    marketplaceToCountry U (some code) = some code := by
  have hn : normalizeObservedCountryCode U (.str code) = some code := h
  simp [marketplaceToCountry, nonEmpty, h.ne_empty, hn]

theorem countryToTz_normalized {code : String} (h : IsNormalized U code) :
    countryToTz U (some code) = (countryToTimezone.lookup code).getD beijing := by
  have hn : normalizeObservedCountryCode U (optionalText (some code)) = some code := h
  unfold countryToTz
  rw [hn]

/-- Neither `EU` nor `ZZ` has a zone. -/
theorem countryToTz_special {code : String} (h : code ∈ nonEuMemberCodes) :
    countryToTz U (some code) = beijing := by
  simp only [nonEuMemberCodes, List.mem_cons, List.not_mem_nil, or_false] at h
  rcases h with rfl | rfl
  · rw [countryToTz_normalized (isNormalized_EU U)]
    decide
  · rw [countryToTz_normalized (isNormalized_ZZ U)]
    decide

theorem orderDisplayTimezone_normalized {code : String} (h : IsNormalized U code)
    (countryCode : Option String) :
    orderDisplayTimezone U (some code) countryCode = countryToTz U (some code) := by
  unfold orderDisplayTimezone
  rw [marketplaceToCountry_normalized h]
  rfl

theorem sourceTz_normalized {code : String} (h : IsNormalized U code) :
    sourceTz U code = countryToTz U (some code) := by
  unfold sourceTz
  rw [marketplaceToCountry_normalized h]

theorem isNormalized_mapped {code : String} (h : IsNormalized U code) (E : List String) :
    IsNormalized U (if code ∈ E then "EU" else code) := by
  split_ifs
  · exact isNormalized_EU U
  · exact h

/-- The zone of a country after the mapping: its own or that of Beijing. -/
theorem countryToTz_mapped (code : String) (E : List String)
    (hc : countryToTz U (some code) = beijing) :
    countryToTz U (some (if code ∈ E then "EU" else code)) = beijing := by
  split_ifs
  · exact countryToTz_special (by decide)
  · exact hc

end Facts

end Restock
