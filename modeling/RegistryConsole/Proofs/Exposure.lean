import Mathlib.Logic.Basic
import RegistryConsole.Proofs.Layers

/-! # Listening beyond the local host

Settings that listen beyond the local host should have the flag for access from the local network.
The variable for the address sees to it, and an address that is not given follows from the flag. A
file that gives an address leaves the flag as it is. -/

namespace RegistryConsole

/-- Whether an address is that of the local host. -/
def IsLocalHost (address : String) : Prop :=
  address = "127.0.0.1" ∨ address = "localhost"

instance (address : String) : Decidable (IsLocalHost address) :=
  inferInstanceAs (Decidable (_ ∨ _))

namespace ServerSettings

variable {s : ServerSettings}

/-- Whether settings that listen beyond the local host have the flag for it. -/
def FlagsExposure (s : ServerSettings) : Prop :=
  ¬IsLocalHost s.address → s.allowLan = true

/-- An address that is not given follows from the flag. -/
theorem flagsExposure_of_bindAddress_eq_none (h : s.bindAddress = none) : s.FlagsExposure := by
  intro hbeyond
  rw [address, h] at hbeyond
  cases hflag : s.allowLan with
  | true => rfl
  | false => exact absurd (Or.inl (by simp [hflag])) hbeyond

theorem flagsExposure_of_allowLan (h : s.allowLan = true) : s.FlagsExposure :=
  fun _ => h

/-- An address that is given needs the flag, unless it is that of the local host. -/
theorem flagsExposure_iff_of_bindAddress {a : String} (h : s.bindAddress = some a) :
    s.FlagsExposure ↔ IsLocalHost a ∨ s.allowLan = true := by
  rw [FlagsExposure, address, h, Decidable.imp_iff_not_or, Decidable.not_not]

theorem flagsExposure_withPort (value : Option String) :
    (s.withPort value).FlagsExposure ↔ s.FlagsExposure := by
  rw [withPort_eq]
  exact Iff.rfl

/-- The variable for the address sets the flag where it is needed. -/
theorem flagsExposure_withAddress (a : String) : (s.withAddress (some a)).FlagsExposure := by
  rw [flagsExposure_iff_of_bindAddress rfl, withAddress]
  by_cases h : IsLocalHost a
  · exact Or.inl h
  · obtain ⟨hnumber, hname⟩ := not_or.1 h
    exact Or.inr (by simp [hnumber, hname])

/-- The variable for the local network only helps. -/
theorem flagsExposure_withLan (value : Option String) :
    (s.withLan value).FlagsExposure ↔ s.FlagsExposure ∨ ∃ v ∈ value, saysYes v = true := by
  cases value with
  | none => simp [withLan]
  | some v =>
    rw [withLan_some]
    cases hyes : saysYes v with
    | true => exact iff_of_true (flagsExposure_of_allowLan (Bool.or_true _)) (Or.inr ⟨v, rfl, hyes⟩)
    | false => simp [hyes]

end ServerSettings

namespace Settings

variable {siteDir : String} {readFile : String → Except FileFault String} {env : Environment}

/-- Whether the file gives an address beyond the local host without the flag for it, and neither of
the variables for the two is there to correct that. -/
inductive IsExposedByFile (siteDir : String) (readFile : String → Except FileFault String)
    (env : Environment) : Prop where
  | intro {path a : String} {s : ServerSettings} (hpath : value? env fileVariable = some path)
      (hfile : ServerSettings.ofFile siteDir path (readFile path) = .ok s)
      (haddress : s.bindAddress = some a) (hbeyond : ¬IsLocalHost a) (hflag : s.allowLan = false)
      (hnone : value? env addressVariable = none)
      (hlan : ∀ v ∈ value? env lanVariable, ServerSettings.saysYes v = false)

/-- Of the settings before the variables, only those of a file that gives an address lack the flag
where it is needed. -/
theorem not_flagsExposure_ofFile_iff {path? : Option String} :
    ¬(ofFile siteDir readFile path?).1.FlagsExposure ↔
      ∃ path s a, path? = some path ∧ ServerSettings.ofFile siteDir path (readFile path) = .ok s ∧
        s.bindAddress = some a ∧ ¬IsLocalHost a ∧ s.allowLan = false := by
  have hdefault : (ServerSettings.default siteDir).FlagsExposure :=
    ServerSettings.flagsExposure_of_bindAddress_eq_none rfl
  cases path? with
  | none => simpa [ofFile] using hdefault
  | some path =>
    cases hfile : ServerSettings.ofFile siteDir path (readFile path) with
    | error f => simpa [ofFile, hfile] using hdefault
    | ok s =>
      cases haddress : s.bindAddress with
      | none =>
        simpa [ofFile, hfile, haddress] using
          ServerSettings.flagsExposure_of_bindAddress_eq_none haddress
      | some a =>
        simp [ofFile, hfile, haddress, ServerSettings.flagsExposure_iff_of_bindAddress haddress]

/-- Settings that listen beyond the local host have the flag for it, unless it is the file alone
that has them do so. -/
theorem flagsExposure_load_iff (siteDir : String) (readFile : String → Except FileFault String)
    (env : Environment) :
    (load siteDir readFile env).1.server.FlagsExposure ↔ ¬IsExposedByFile siteDir readFile env := by
  rw [load_eq_ofValues, ofValues, ServerSettings.flagsExposure_withPort]
  cases haddress : value? env addressVariable with
  | some a =>
    refine iff_of_true (ServerSettings.flagsExposure_withAddress a) ?_
    rintro ⟨-, -, -, -, -, hnone, -⟩
    exact absurd (haddress.symm.trans hnone) (by simp)
  | none =>
    show (ServerSettings.withLan _ _).FlagsExposure ↔ _
    rw [ServerSettings.flagsExposure_withLan, ← not_iff_not, not_or,
      not_flagsExposure_ofFile_iff, not_not]
    constructor
    · rintro ⟨⟨path, s, a, hpath, hfile, ha, hbeyond, hflag⟩, hlan⟩
      exact ⟨hpath, hfile, ha, hbeyond, hflag, haddress, fun v hv =>
        Bool.eq_false_iff.2 fun hyes => hlan ⟨v, hv, hyes⟩⟩
    · rintro ⟨hpath, hfile, ha, hbeyond, hflag, -, hlan⟩
      refine ⟨⟨_, _, _, hpath, hfile, ha, hbeyond, hflag⟩, ?_⟩
      rintro ⟨v, hv, hyes⟩
      rw [hlan v hv] at hyes
      exact absurd hyes (by simp)

/-- A file that gives the address of every interface, and nothing else, has the console listen on
all of them while its settings tell of no access from the local network. -/
theorem not_flagsExposure_of_open_file :
    ¬(load "web" (fun _ => .ok "\x7b\"bind_address\":\"0.0.0.0\"\x7d")
      (Environment.withValue (fun _ => none) fileVariable
        (some "server.json"))).1.server.FlagsExposure := by
  intro h
  have hserver : (load "web" (fun _ => .ok "\x7b\"bind_address\":\"0.0.0.0\"\x7d")
      (Environment.withValue (fun _ => none) fileVariable (some "server.json"))).1.server =
        ⟨3000, false, some "0.0.0.0", 104857600, "web"⟩ := by rfl
  rw [hserver] at h
  exact absurd (h (by decide)) (by decide)

end Settings

end RegistryConsole
