/-
Turpial.Storage.WifiSettings — the settings of the access point in the
storage (`wifi/sys/storage/wifisettings/wifisettings.c`), and what their
callers learn.

The functions promise 0 for success and -1 for failure. They test what the
storage returns with `< 0`, but all the error codes of the NVS library
except `ESP_FAIL` are positive. So a value that was not stored is reported
as stored.

The two strings of `wifi_settings` lie next to each other. A string that
fills its field runs on into what follows.

§1 is the functions, §2 what each has done by its calls, §3 compares this
with what it returns.
-/
import Turpial.Storage.Nvs

namespace Turpial.Storage

/-! ## §1 The functions -/

/-- `SSID_LENGTH`. -/
def ssidLength : Nat := 32

/-- `PASSWORD_LENGTH`. -/
def passwordLength : Nat := 64

/-- `wifi_settings`. -/
structure WifiSettings where
  ssid : Vector UInt8 ssidLength
  password : Vector UInt8 passwordLength

/-- `set_ap_credentials`. What lies behind its argument in memory is `behind`. -/
def setApCredentials (nvs : Nvs) (apValue : WifiSettings) (behind : List UInt8)
    (ssidRes passwordRes : Int) : Int × List EspCall :=
  let ssid := nvsSetString nvs "ap_ssid"
    (apValue.ssid.toList ++ (apValue.password.toList ++ behind)) ssidRes
  if ssid.1 < 0 then (-1, ssid.2)
  else
    let password := nvsSetString nvs "ap_password" (apValue.password.toList ++ behind) passwordRes
    if password.1 < 0 then (-1, ssid.2 ++ password.2) else (0, ssid.2 ++ password.2)

/-- `get_ap_credentials`, with `*ap_value` after it. -/
def getApCredentials (nvs : Nvs) (apValue : WifiSettings) (ssidGot : Got ssidLength)
    (passwordGot : Got passwordLength) : (Int × WifiSettings) × List EspCall :=
  let ssid := nvsGetString nvs "ap_ssid" apValue.ssid ssidLength ssidGot
  let apValue := { apValue with ssid := ssid.1.2.1 }
  if ssid.1.1 < 0 then ((-1, apValue), ssid.2)
  else
    let password := nvsGetString nvs "ap_password" apValue.password passwordLength passwordGot
    let apValue := { apValue with password := password.1.2.1 }
    if password.1.1 < 0 then ((-1, apValue), ssid.2 ++ password.2)
    else ((0, apValue), ssid.2 ++ password.2)

/-- `set_global_ipv6`, for the bytes `ip6.u8`. -/
def setGlobalIpv6 (nvs : Nvs) (ip6 : Vector UInt8 16) (res : Int) : Int × List EspCall :=
  let blob := setBlob nvs "global_ipv6" ip6.toList 16 res
  if blob.1 < 0 then (-1, blob.2) else (0, blob.2)

/-! ## §2 What is done -/

/-- A call of one of the functions, with what the library does there. -/
inductive SettingsCall where
  | setAp (apValue : WifiSettings) (behind : List UInt8) (ssidRes passwordRes : Int)
  | getAp (apValue : WifiSettings) (ssidGot : Got ssidLength) (passwordGot : Got passwordLength)
  | setGlobal (ip6 : Vector UInt8 16) (res : Int)

/-- What it returns. -/
def SettingsCall.returned (nvs : Nvs) : SettingsCall → Int
  | .setAp apValue behind ssidRes passwordRes =>
    (setApCredentials nvs apValue behind ssidRes passwordRes).1
  | .getAp apValue ssidGot passwordGot => (getApCredentials nvs apValue ssidGot passwordGot).1.1
  | .setGlobal ip6 res => (setGlobalIpv6 nvs ip6 res).1

/-- Both strings were stored, or read into the output, or the address was stored. -/
def SettingsCall.Done (nvs : Nvs) : SettingsCall → Prop
  | .setAp apValue behind ssidRes passwordRes =>
    let calls := (setApCredentials nvs apValue behind ssidRes passwordRes).2
    .nvsSetStr nvs.handle "ap_ssid" (cString apValue.ssid.toList) espOk ∈ calls ∧
      .nvsSetStr nvs.handle "ap_password" (cString apValue.password.toList) espOk ∈ calls
  | .getAp apValue ssidGot passwordGot =>
    let got := getApCredentials nvs apValue ssidGot passwordGot
    .nvsGetStr nvs.handle "ap_ssid" ssidLength got.1.2.ssid.toList espOk ∈ got.2 ∧
      .nvsGetStr nvs.handle "ap_password" passwordLength got.1.2.password.toList espOk ∈ got.2
  | .setGlobal ip6 res =>
    .nvsSetBlob nvs.handle "global_ipv6" ip6.toList espOk ∈ (setGlobalIpv6 nvs ip6 res).2

/-- It returns 0 if it is done and only then, and -1 otherwise. -/
structure Truthful (nvs : Nvs) (c : SettingsCall) : Prop where
  success : c.returned nvs = 0 ↔ c.Done nvs
  failure : ¬ c.Done nvs → c.returned nvs = -1

/-- The string in a field ends there, or nothing follows it that is not NUL. -/
def EndsIn {n : Nat} (field : Vector UInt8 n) (behind : List UInt8) : Prop :=
  0 ∈ field.toList ∨ cString behind = []

/-- With an open NVS, one of the results is negative, or all are 0 and the
strings are the ones in their fields. -/
def SettingsCall.Reported (nvs : Nvs) : SettingsCall → Prop
  | .setAp apValue behind ssidRes passwordRes =>
    nvs.isOpen = true → ssidRes < 0 ∨ passwordRes < 0 ∨ (ssidRes = espOk ∧ passwordRes = espOk ∧
      EndsIn apValue.ssid (apValue.password.toList ++ behind) ∧ EndsIn apValue.password behind)
  | .getAp _ ssidGot passwordGot =>
    nvs.isOpen = true → ssidGot.res < 0 ∨ passwordGot.res < 0 ∨
      (ssidGot.res = espOk ∧ passwordGot.res = espOk)
  | .setGlobal _ res => nvs.isOpen = true → res ≤ 0

/-! ## §3 What is returned -/

section Functions

variable {nvs : Nvs}

/-- A failure that is returned is the truth where nothing is done. -/
theorem truthful_of_failure {c : SettingsCall} (hreturned : c.returned nvs = -1)
    (hnot : ¬ c.Done nvs) : Truthful nvs c := by
  refine ⟨iff_of_false ?_ hnot, fun _ => hreturned⟩
  rw [hreturned]
  decide

/-- A function that tests for failures, and is not done where there is one,
is truthful where there is one or it is done. -/
theorem truthful_iff {c : SettingsCall} {failed : Prop} [Decidable failed]
    (hreturned : c.returned nvs = if failed then -1 else 0) (hnot : failed → ¬ c.Done nvs) :
    Truthful nvs c ↔ failed ∨ c.Done nvs := by
  by_cases hfailed : failed
  · rw [if_pos hfailed] at hreturned
    exact iff_of_true (truthful_of_failure hreturned (hnot hfailed)) (.inl hfailed)
  · rw [if_neg hfailed] at hreturned
    rw [or_iff_right hfailed]
    constructor
    · intro h
      exact h.success.mp hreturned
    · intro h
      exact ⟨iff_of_true hreturned h, fun hundone => absurd h hundone⟩

/-- With a closed NVS nothing is called, and -1 returned. -/
theorem setApCredentials_closed (h : nvs.isOpen = false) (apValue : WifiSettings)
    (behind : List UInt8) (ssidRes passwordRes : Int) :
    setApCredentials nvs apValue behind ssidRes passwordRes = (-1, []) := by
  unfold setApCredentials nvsSetString
  rw [ifOpen_closed _ _ _ h]
  rfl

theorem getApCredentials_closed (h : nvs.isOpen = false) (apValue : WifiSettings)
    (ssidGot : Got ssidLength) (passwordGot : Got passwordLength) :
    getApCredentials nvs apValue ssidGot passwordGot = ((-1, apValue), []) := by
  unfold getApCredentials nvsGetString
  dsimp only
  rw [ifOpen_closed _ _ _ h]
  rfl

theorem setGlobalIpv6_closed (h : nvs.isOpen = false) (ip6 : Vector UInt8 16) (res : Int) :
    setGlobalIpv6 nvs ip6 res = (-1, []) := by
  unfold setGlobalIpv6 setBlob
  rw [ifOpen_closed _ _ _ h]
  rfl

/-- With an open NVS, `set_ap_credentials` calls the library once or twice. -/
theorem setApCredentials_open (h : nvs.isOpen = true) (apValue : WifiSettings)
    (behind : List UInt8) (ssidRes passwordRes : Int) :
    setApCredentials nvs apValue behind ssidRes passwordRes =
      (if ssidRes < 0 ∨ passwordRes < 0 then -1 else 0,
        .nvsSetStr nvs.handle "ap_ssid"
            (cString (apValue.ssid.toList ++ (apValue.password.toList ++ behind))) ssidRes ::
          if ssidRes < 0 then []
          else [.nvsSetStr nvs.handle "ap_password" (cString (apValue.password.toList ++ behind))
            passwordRes]) := by
  unfold setApCredentials nvsSetString
  rw [ifOpen_open _ _ _ h, ifOpen_open _ _ _ h]
  by_cases hssid : ssidRes < 0
  · simp [hssid]
  · by_cases hpassword : passwordRes < 0 <;> simp [hssid, hpassword]

/-- So does `get_ap_credentials`. -/
theorem getApCredentials_open (h : nvs.isOpen = true) (apValue : WifiSettings)
    (ssidGot : Got ssidLength) (passwordGot : Got passwordLength) :
    getApCredentials nvs apValue ssidGot passwordGot =
      ((if ssidGot.res < 0 ∨ passwordGot.res < 0 then -1 else 0,
          { ssid := ssidGot.buffer
            password := if ssidGot.res < 0 then apValue.password else passwordGot.buffer }),
        .nvsGetStr nvs.handle "ap_ssid" ssidLength ssidGot.buffer.toList ssidGot.res ::
          if ssidGot.res < 0 then []
          else [.nvsGetStr nvs.handle "ap_password" passwordLength passwordGot.buffer.toList
            passwordGot.res]) := by
  unfold getApCredentials nvsGetString
  dsimp only
  rw [ifOpen_open _ _ _ h, ifOpen_open _ _ _ h]
  by_cases hssid : ssidGot.res < 0
  · simp [hssid]
  · by_cases hpassword : passwordGot.res < 0 <;> simp [hssid, hpassword]

/-- `set_global_ipv6` calls it once. -/
theorem setGlobalIpv6_open (h : nvs.isOpen = true) (ip6 : Vector UInt8 16) (res : Int) :
    setGlobalIpv6 nvs ip6 res =
      (if res < 0 then -1 else 0, [.nvsSetBlob nvs.handle "global_ipv6" ip6.toList res]) := by
  unfold setGlobalIpv6 setBlob
  rw [ifOpen_open _ _ _ h]
  have hall : ip6.toList.take 16 = ip6.toList := List.take_of_length_le (by simp)
  by_cases hres : res < 0 <;> simp [hres, hall]

/-- The strings are stored if both calls succeed with the strings of the fields. -/
theorem setAp_done_iff (h : nvs.isOpen = true) (apValue : WifiSettings) (behind : List UInt8)
    (ssidRes passwordRes : Int) :
    (SettingsCall.setAp apValue behind ssidRes passwordRes).Done nvs ↔
      ssidRes = espOk ∧ passwordRes = espOk ∧
        EndsIn apValue.ssid (apValue.password.toList ++ behind) ∧
        EndsIn apValue.password behind := by
  unfold SettingsCall.Done EndsIn
  dsimp only
  rw [setApCredentials_open h, ← cString_append_eq_iff, ← cString_append_eq_iff]
  by_cases hssid : ssidRes < 0
  · have hfailed : ssidRes ≠ espOk := Int.ne_of_lt hssid
    simp [hssid, hfailed]
  · dsimp only
    rw [if_neg hssid]
    simp [eq_comm]
    tauto

/-- The strings are read if both calls succeed. -/
theorem getAp_done_iff (h : nvs.isOpen = true) (apValue : WifiSettings)
    (ssidGot : Got ssidLength) (passwordGot : Got passwordLength) :
    (SettingsCall.getAp apValue ssidGot passwordGot).Done nvs ↔
      ssidGot.res = espOk ∧ passwordGot.res = espOk := by
  unfold SettingsCall.Done
  dsimp only
  rw [getApCredentials_open h]
  by_cases hssid : ssidGot.res < 0
  · have hfailed : ssidGot.res ≠ espOk := Int.ne_of_lt hssid
    simp [hssid, hfailed]
  · simp [hssid, eq_comm]

theorem setGlobal_done_iff (h : nvs.isOpen = true) (ip6 : Vector UInt8 16) (res : Int) :
    (SettingsCall.setGlobal ip6 res).Done nvs ↔ res = espOk := by
  unfold SettingsCall.Done
  dsimp only
  rw [setGlobalIpv6_open h]
  simp [eq_comm]

/-- With a closed NVS every function is truthful. -/
theorem truthful_closed (h : nvs.isOpen = false) (c : SettingsCall) : Truthful nvs c := by
  cases c with
  | setAp apValue behind ssidRes passwordRes =>
    have hclosed := setApCredentials_closed h apValue behind ssidRes passwordRes
    refine truthful_of_failure (congrArg Prod.fst hclosed) ?_
    unfold SettingsCall.Done
    dsimp only
    rw [hclosed]
    exact fun hdone => List.not_mem_nil hdone.1
  | getAp apValue ssidGot passwordGot =>
    have hclosed := getApCredentials_closed h apValue ssidGot passwordGot
    refine truthful_of_failure (congrArg (·.1.1) hclosed) ?_
    unfold SettingsCall.Done
    dsimp only
    rw [hclosed]
    exact fun hdone => List.not_mem_nil hdone.1
  | setGlobal ip6 res =>
    have hclosed := setGlobalIpv6_closed h ip6 res
    refine truthful_of_failure (congrArg Prod.fst hclosed) ?_
    unfold SettingsCall.Done
    dsimp only
    rw [hclosed]
    exact List.not_mem_nil

/-- With an open NVS a function is truthful where one of the results is
negative or it is done. -/
theorem truthful_open (h : nvs.isOpen = true) (c : SettingsCall) :
    Truthful nvs c ↔ c.Reported nvs := by
  cases c with
  | setAp apValue behind ssidRes passwordRes =>
    have hreturned : (SettingsCall.setAp apValue behind ssidRes passwordRes).returned nvs =
        if ssidRes < 0 ∨ passwordRes < 0 then -1 else 0 :=
      congrArg Prod.fst (setApCredentials_open h apValue behind ssidRes passwordRes)
    have hdone := setAp_done_iff h apValue behind ssidRes passwordRes
    rw [truthful_iff hreturned, hdone, or_assoc]
    · exact ⟨fun hor _ => hor, fun himp => himp h⟩
    · rw [hdone]
      rintro hneg ⟨hssid, hpassword, -⟩
      unfold espOk at hssid hpassword
      omega
  | getAp apValue ssidGot passwordGot =>
    have hreturned : (SettingsCall.getAp apValue ssidGot passwordGot).returned nvs =
        if ssidGot.res < 0 ∨ passwordGot.res < 0 then -1 else 0 :=
      congrArg (·.1.1) (getApCredentials_open h apValue ssidGot passwordGot)
    have hdone := getAp_done_iff h apValue ssidGot passwordGot
    rw [truthful_iff hreturned, hdone, or_assoc]
    · exact ⟨fun hor _ => hor, fun himp => himp h⟩
    · rw [hdone]
      rintro hneg ⟨hssid, hpassword⟩
      unfold espOk at hssid hpassword
      omega
  | setGlobal ip6 res =>
    have hreturned : (SettingsCall.setGlobal ip6 res).returned nvs = if res < 0 then -1 else 0 :=
      congrArg Prod.fst (setGlobalIpv6_open h ip6 res)
    have hdone := setGlobal_done_iff h ip6 res
    rw [truthful_iff hreturned, hdone]
    · constructor
      · rintro (hneg | hok) -
        · exact Int.le_of_lt hneg
        · exact Int.le_of_eq hok
      · intro himp
        exact Int.lt_or_eq_of_le (himp h)
    · rw [hdone]
      intro hneg hok
      unfold espOk at hok
      omega

end Functions

/-- **The settings report their success truthfully exactly if the NVS is
closed, a result is negative, or all results are 0 and the strings end in
their fields.** -/
theorem truthful_iff_reported (nvs : Nvs) (c : SettingsCall) : Truthful nvs c ↔ c.Reported nvs := by
  cases hflag : nvs.isOpen with
  | false =>
    have hreported : c.Reported nvs := by
      have hup : ¬ nvs.isOpen = true := by rw [hflag]; decide
      cases c with
      | setAp apValue behind ssidRes passwordRes => exact fun h => absurd h hup
      | getAp apValue ssidGot passwordGot => exact fun h => absurd h hup
      | setGlobal ip6 res => exact fun h => absurd h hup
    exact iff_of_true (truthful_closed hflag c) hreported
  | true => exact truthful_open hflag c

/-- An open NVS without room for the password (`ESP_ERR_NVS_NOT_ENOUGH_SPACE`):
`set_ap_credentials` returns 0, and the password is not stored. -/
theorem not_truthful_no_space :
    ¬ Truthful { handle := 1, isOpen := true }
      (.setAp ⟨Vector.replicate 32 0, Vector.replicate 64 0⟩ [] 0 0x1105) := by
  intro h
  have hstored := (h.success.mp (by decide +kernel)).2
  exact absurd hstored (by decide +kernel)

end Turpial.Storage
