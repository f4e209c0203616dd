import Letterbox.Config.Basic
import Letterbox.Proofs.Net.AddressText
import Letterbox.Proofs.Text.Words

/-!
# What an endpoint stands for

An endpoint made from an address stands for that address. Blanks around a configured address do
not change what it stands for, and neither whether the configuration makes sense, with one
exception: the name of this machine is not known with blanks around it.
-/

namespace Letterbox

set_option autoImplicit false

open Text

namespace Endpoint

/-! ## From an address and back -/

theorem trim_toText (ip : IpAddress) : trim ip.toText = ip.toText := by
  rw [trim, trimChars_of_not_isBlank ip.not_isBlank_of_mem_toText, String.ofList_toList]

/-- What is written for an address is not taken for one of the names. -/
theorem sameIgnoringCase_toText (ip : IpAddress) {name : String} (hdot : '.' ∉ name.toList)
    (hcolon : ':' ∉ name.toList) : sameIgnoringCase ip.toText name = false := by
  refine Bool.eq_false_iff.mpr fun h => ?_
  have hnone := IpAddress.ofText?_of_name h hdot hcolon
  rw [ip.ofText?_toText] at hnone
  cases hnone

theorem isEmpty_toText (ip : IpAddress) : ip.toText.isEmpty = false := by
  refine Bool.eq_false_iff.mpr fun h => ?_
  have hread := ip.ofText?_toText
  rw [String.isEmpty_iff.mp h] at hread
  cases hread

theorem isWildcard_ofSocketAddress (a : SocketAddress) :
    (ofSocketAddress a).isWildcard = false := by
  simp only [isWildcard, ofSocketAddress, trim_toText, isEmpty_toText, Bool.false_or]
  exact sameIgnoringCase_toText a.ip (by decide) (by decide)

/-- An endpoint made from an address stands for that address. -/
theorem socketAddress_ofSocketAddress (a : SocketAddress) :
    (ofSocketAddress a).socketAddress = .ok a := by
  have hname : sameIgnoringCase (ofSocketAddress a).address "localhost" = false :=
    sameIgnoringCase_toText a.ip (by decide) (by decide)
  have hread : IpAddress.ofText? (trim (ofSocketAddress a).address) = some a.ip := by
    rw [ofSocketAddress, trim_toText, IpAddress.ofText?_toText]
  simp only [socketAddress, isWildcard_ofSocketAddress, hname, hread, Bool.false_eq_true, if_false]
  rfl

/-! ## Blanks around an address -/

def padded (e : Endpoint) (u v : String) : Endpoint := { e with address := u ++ e.address ++ v }

/-- The address is the name of this machine, in any case and without blanks. -/
def IsLocalhost (e : Endpoint) : Prop := sameIgnoringCase e.address "localhost" = true

instance : DecidablePred IsLocalhost := fun e => by
  unfold IsLocalhost
  infer_instance

section
variable {e e' : Endpoint}

theorem isWildcard_congr (h : trim e.address = trim e'.address) : e.isWildcard = e'.isWildcard := by
  rw [isWildcard, isWildcard, h]

theorem socketAddress_congr (htrim : trim e.address = trim e'.address) (hport : e.port = e'.port)
    (hname : e.IsLocalhost ↔ e'.IsLocalhost) (a : SocketAddress) :
    e.socketAddress = .ok a ↔ e'.socketAddress = .ok a := by
  have hname' := Bool.eq_iff_iff.mpr hname
  simp only [socketAddress, isWildcard_congr htrim, hname', hport, htrim]
  cases IpAddress.ofText? (trim e'.address) with
  | some ip => rfl
  | none =>
    -- The reports name the address as it is configured, so they differ.
    split
    · rfl
    · split
      · rfl
      · exact iff_of_false nofun nofun

namespace IsLocalhost

variable (h : e.IsLocalhost)
include h

theorem not_isBlank : ∀ c ∈ e.address.toList, isBlank c = false :=
  ((sameIgnoringCase_iff _ _).mp h).forall_isBlank (not_isBlank_of_all (by decide))

theorem trim_eq : trim e.address = e.address := by
  rw [trim, trimChars_of_not_isBlank h.not_isBlank, String.ofList_toList]

theorem isWildcard_eq : e.isWildcard = false := by
  have hlen := ((sameIgnoringCase_iff _ _).mp h).length
  rw [isWildcard, h.trim_eq, Bool.or_eq_false_iff]
  constructor <;> refine Bool.eq_false_iff.mpr fun hother => ?_
  · rw [String.isEmpty_iff.mp hother] at hlen
    cases hlen
  · rw [((sameIgnoringCase_iff _ _).mp hother).length] at hlen
    cases hlen

theorem socketAddress_eq : e.socketAddress = .ok ⟨.v4 .loopback, e.port⟩ := by
  have hname : sameIgnoringCase e.address "localhost" = true := h
  rw [socketAddress, h.isWildcard_eq, if_neg Bool.false_ne_true, if_pos hname]

theorem ofText?_eq_none : IpAddress.ofText? e.address = none :=
  IpAddress.ofText?_of_name h (by decide) (by decide)

end IsLocalhost

end

section
variable (e : Endpoint) {u v : String} (hu : blankText u = true) (hv : blankText v = true)
include hu hv

theorem trim_padded : trim (e.padded u v).address = trim e.address := by
  rw [trim, padded, String.toList_append, String.toList_append,
    trimChars_padded (List.all_eq_true.mp hu) (List.all_eq_true.mp hv), trim]

theorem isWildcard_padded : (e.padded u v).isWildcard = e.isWildcard :=
  isWildcard_congr (e.trim_padded hu hv)

theorem isLocalhost_padded_iff :
    (e.padded u v).IsLocalhost ↔ e.IsLocalhost ∧ u = "" ∧ v = "" := by
  constructor
  · intro h
    have hempty : ∀ {w : String}, blankText w = true → w.toList ⊆ (e.padded u v).address.toList →
        w = "" := by
      intro w hw hsub
      rw [← String.toList_eq_nil_iff, List.eq_nil_iff_forall_not_mem]
      intro c hc
      have hblank := List.all_eq_true.mp hw c hc
      rw [h.not_isBlank c (hsub hc)] at hblank
      cases hblank
    have hu' := hempty hu (by simp [padded])
    have hv' := hempty hv (by simp [padded])
    subst hu' hv'
    rw [padded, String.empty_append, String.append_empty] at h
    exact ⟨h, rfl, rfl⟩
  · rintro ⟨h, rfl, rfl⟩
    rwa [padded, String.empty_append, String.append_empty]

theorem socketAddress_padded (h : e.IsLocalhost → u = "" ∧ v = "") (a : SocketAddress) :
    (e.padded u v).socketAddress = .ok a ↔ e.socketAddress = .ok a := by
  apply socketAddress_congr (e.trim_padded hu hv) rfl
  rw [isLocalhost_padded_iff e hu hv]
  exact ⟨And.left, fun hlocal => ⟨hlocal, h hlocal⟩⟩

/-- With blanks around it the name of this machine is taken for an address, and it is none. -/
theorem socketAddress_padded_localhost (h : e.IsLocalhost) (hne : ¬ (u = "" ∧ v = "")) :
    (e.padded u v).socketAddress =
      .error (.config ("Invalid endpoint address '" ++ (u ++ e.address ++ v) ++
        "': invalid IP address syntax")) := by
  have hwild : (e.padded u v).isWildcard = false := by
    rw [e.isWildcard_padded hu hv, h.isWildcard_eq]
  have hname : ¬ sameIgnoringCase (e.padded u v).address "localhost" = true := fun hpadded =>
    hne ((isLocalhost_padded_iff e hu hv).mp hpadded).2
  have hread : IpAddress.ofText? (trim (e.padded u v).address) = none := by
    rw [e.trim_padded hu hv, h.trim_eq, h.ofText?_eq_none]
  rw [socketAddress, hwild, if_neg Bool.false_ne_true, if_neg hname, hread]
  rfl

end

end Endpoint

namespace Config

/-- The configuration with text before and after the address for mail. -/
def padded (c : Config) (u v : String) : Config :=
  { c with mail := { c.mail with address := u ++ c.mail.address ++ v } }

theorem validate_eq_ok_iff (c : Config) :
    c.validate = .ok () ↔ c.mail.maxMessageSize ≠ 0 ∧ c.events.busCapacity ≠ 0 ∧
      (c.logging.format = "pretty" ∨ c.logging.format = "json") ∧
      ∃ a, c.mailEndpoint.socketAddress = .ok a := by
  simp only [validate, throw, throwThe, MonadExceptOf.throw, bind, Except.bind, pure, Except.pure]
  by_cases hsize : c.mail.maxMessageSize = 0
  · simp [hsize]
  by_cases hbus : c.events.busCapacity = 0
  · simp [hsize, hbus]
  by_cases hformat : c.logging.format = "pretty" ∨ c.logging.format = "json"
  · cases c.mailEndpoint.socketAddress <;> simp [hsize, hbus, ← not_or, hformat]
  · simp [hsize, hbus, ← not_or, hformat]

theorem mailEndpoint_padded (c : Config) (u v : String) :
    (c.padded u v).mailEndpoint = c.mailEndpoint.padded u v := rfl

/-- Only what the endpoint for mail stands for is looked at. -/
theorem validate_padded_iff {c : Config} (h : c.validate = .ok ()) (u v : String) :
    (c.padded u v).validate = .ok () ↔ ∃ a, (c.mailEndpoint.padded u v).socketAddress = .ok a := by
  obtain ⟨hsize, hbus, hformat, -⟩ := (validate_eq_ok_iff c).mp h
  rw [validate_eq_ok_iff, mailEndpoint_padded]
  exact ⟨fun h => h.2.2.2, fun h => ⟨hsize, hbus, hformat, h⟩⟩

end Config

namespace Endpoint

/-- Blanks around an address. Whether it stands for all interfaces does not depend on them, and what
it stands for at all does not either, unless it is the name of this machine. That name is refused
with blanks around it, and so is a configuration with it that makes sense without them. -/
theorem padding_unseen_iff (e : Endpoint) {u v : String} (hu : blankText u = true)
    (hv : blankText v = true) :
    (e.padded u v).isWildcard = e.isWildcard ∧
    ((∀ a, (e.padded u v).socketAddress = .ok a ↔ e.socketAddress = .ok a) ↔
      (e.IsLocalhost → u = "" ∧ v = "")) ∧
    (∀ c : Config, c.mailEndpoint = e → c.validate = .ok () →
      ((c.padded u v).validate = .ok () ∧
          (c.padded u v).mailEndpoint.socketAddress = c.mailEndpoint.socketAddress ↔
        (e.IsLocalhost → u = "" ∧ v = ""))) ∧
    (e.IsLocalhost → ¬ (u = "" ∧ v = "") →
      e.socketAddress = .ok ⟨.v4 .loopback, e.port⟩ ∧
        (e.padded u v).socketAddress =
          .error (.config ("Invalid endpoint address '" ++ (u ++ e.address ++ v) ++
            "': invalid IP address syntax"))) := by
  have hrefused : e.IsLocalhost → ¬ (u = "" ∧ v = "") → ∀ a, (e.padded u v).socketAddress ≠ .ok a :=
    fun hlocal hne a hok => by
      rw [e.socketAddress_padded_localhost hu hv hlocal hne] at hok
      cases hok
  refine ⟨e.isWildcard_padded hu hv, ⟨fun hsame hlocal => ?_, e.socketAddress_padded hu hv⟩, ?_,
    fun hlocal hne => ⟨hlocal.socketAddress_eq, e.socketAddress_padded_localhost hu hv hlocal hne⟩⟩
  · by_contra hne
    exact hrefused hlocal hne _ ((hsame _).mpr hlocal.socketAddress_eq)
  · rintro c rfl hvalid
    rw [Config.validate_padded_iff hvalid, Config.mailEndpoint_padded]
    constructor
    · rintro ⟨⟨a, ha⟩, -⟩ hlocal
      by_contra hne
      exact hrefused hlocal hne a ha
    · intro hlocal
      obtain ⟨-, -, -, a, ha⟩ := (Config.validate_eq_ok_iff c).mp hvalid
      have hpadded := (c.mailEndpoint.socketAddress_padded hu hv hlocal a).mpr ha
      exact ⟨⟨a, hpadded⟩, by rw [hpadded, ha]⟩

/-- An address with blanks of several kinds around it, and a configuration with it. -/
theorem padding_unseen_linkLocal :
    let e : Endpoint := ⟨"FE80::1", 25⟩
    let c : Config := { Config.ofMachine "sink.test" with mail := { address := "FE80::1" } }
    blankText " \t" = true ∧ blankText "\u3000" = true ∧
      (e.padded " \t" "\u3000").socketAddress =
        .ok ⟨.v6 ⟨[0xFE80, 0, 0, 0, 0, 0, 0, 1], rfl⟩, 25⟩ ∧
      c.validate = .ok () ∧ (c.padded " \t" "\u3000").validate = .ok () := by
  intro e c
  have hfront : blankText " \t" = true := by decide
  have hback : blankText "\u3000" = true := by decide
  have hother : e.IsLocalhost → " \t" = "" ∧ "\u3000" = "" := by decide
  have hread : e.socketAddress = .ok ⟨.v6 ⟨[0xFE80, 0, 0, 0, 0, 0, 0, 1], rfl⟩, 25⟩ := by
    decide +kernel
  have hvalid : c.validate = .ok () := by decide +kernel
  obtain ⟨-, hsame, hconfig, -⟩ := padding_unseen_iff e hfront hback
  exact ⟨hfront, hback, (hsame.mpr hother _).mpr hread, hvalid,
    ((hconfig c rfl hvalid).mpr hother).1⟩

/-- A single blank makes this machine unknown, and the configuration with it one that makes no
sense. -/
theorem localhost_lost :
    let e : Endpoint := ⟨"localhost", 25⟩
    let c : Config := { Config.ofMachine "sink.test" with mail := { address := "localhost" } }
    blankText " " = true ∧ blankText "" = true ∧ e.socketAddress = .ok ⟨.v4 .loopback, 25⟩ ∧
      (e.padded " " "").socketAddress = .error (.config
        "Invalid endpoint address ' localhost': invalid IP address syntax") ∧
      c.mailEndpoint = e ∧ c.validate = .ok () ∧ (c.padded " " "").validate ≠ .ok () := by
  refine ⟨by decide, by decide, ?_, ?_, rfl, ?_, ?_⟩
  · decide +kernel
  · decide +kernel
  · decide +kernel
  · decide +kernel

end Endpoint

end Letterbox
