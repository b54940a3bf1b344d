import BleClientHid.Component.Database
import BleClientHid.Lib.Room

/-! # What the inventory keeps

The database cut down to the limits, and where a limit was met.
-/

namespace BleClientHid

open Lib BLEClientHID

/-! ## The totals -/

structure Totals where
  includes : Nat := 0
  characteristics : Nat := 0
  descriptors : Nat := 0
  deriving DecidableEq, Repr

def descriptorCount (characteristics : List GattCharacteristicInfo) : Nat :=
  (characteristics.map (·.descriptors.length)).sum

@[simp] theorem descriptorCount_nil : descriptorCount [] = 0 := rfl

@[simp] theorem descriptorCount_cons (characteristic : GattCharacteristicInfo)
    (rest : List GattCharacteristicInfo) :
    descriptorCount (characteristic :: rest) = characteristic.descriptors.length + descriptorCount rest := by
  simp [descriptorCount]

namespace Totals

def add (t : Totals) (service : GattServiceInfo) : Totals :=
  { includes := t.includes + service.includedServices.length
    characteristics := t.characteristics + service.characteristics.length
    descriptors := t.descriptors + descriptorCount service.characteristics }

structure Fits (t : Totals) : Prop where
  includes : t.includes ≤ maxIncludedServices
  characteristics : t.characteristics ≤ maxCharacteristics
  descriptors : t.descriptors ≤ maxDescriptors

end Totals

def totals (t : Totals) (services : List GattServiceInfo) : Totals := services.foldl Totals.add t

@[simp] theorem totals_cons (t : Totals) (service : GattServiceInfo) (rest : List GattServiceInfo) :
    totals t (service :: rest) = totals (t.add service) rest := rfl

theorem includes_le_totals (t : Totals) (services : List GattServiceInfo) :
    t.includes ≤ (totals t services).includes := by
  induction services generalizing t with
  | nil => exact Nat.le_refl _
  | cons service rest ih => exact Nat.le_trans (Nat.le_add_right _ _) (ih (t.add service))

theorem characteristics_le_totals (t : Totals) (services : List GattServiceInfo) :
    t.characteristics ≤ (totals t services).characteristics := by
  induction services generalizing t with
  | nil => exact Nat.le_refl _
  | cons service rest ih => exact Nat.le_trans (Nat.le_add_right _ _) (ih (t.add service))

theorem descriptors_le_totals (t : Totals) (services : List GattServiceInfo) :
    t.descriptors ≤ (totals t services).descriptors := by
  induction services generalizing t with
  | nil => exact Nat.le_refl _
  | cons service rest ih => exact Nat.le_trans (Nat.le_add_right _ _) (ih (t.add service))

theorem Totals.Fits.of_totals {t : Totals} {services : List GattServiceInfo} (h : (totals t services).Fits) :
    t.Fits where
  includes := Nat.le_trans (includes_le_totals t services) h.includes
  characteristics := Nat.le_trans (characteristics_le_totals t services) h.characteristics
  descriptors := Nat.le_trans (descriptors_le_totals t services) h.descriptors

/-! ## The parts kept -/

def keepCharacteristic (total : Nat) (characteristic : GattCharacteristicInfo) : GattCharacteristicInfo :=
  { characteristic with descriptors := upTo maxDescriptors total characteristic.descriptors }

def keepCharacteristics (total : Nat) : List GattCharacteristicInfo → List GattCharacteristicInfo
  | [] => []
  | characteristic :: rest =>
    let kept := keepCharacteristic total characteristic
    kept :: keepCharacteristics (total + kept.descriptors.length) rest

def keepService (t : Totals) (service : GattServiceInfo) : GattServiceInfo :=
  { service with
    includedServices := upTo maxIncludedServices t.includes service.includedServices
    characteristics := keepCharacteristics t.descriptors
      (upTo maxCharacteristics t.characteristics service.characteristics) }

def keepServices (t : Totals) : List GattServiceInfo → List GattServiceInfo
  | [] => []
  | service :: rest => keepService t service :: keepServices (t.add (keepService t service)) rest

section

variable {total : Nat} {t : Totals}

@[simp] theorem length_keepCharacteristics (total : Nat) (l : List GattCharacteristicInfo) :
    (keepCharacteristics total l).length = l.length := by
  induction l generalizing total with
  | nil => rfl
  | cons characteristic rest ih => rw [keepCharacteristics, List.length_cons, ih, List.length_cons]

@[simp] theorem length_keepServices (t : Totals) (l : List GattServiceInfo) :
    (keepServices t l).length = l.length := by
  induction l generalizing t with
  | nil => rfl
  | cons service rest ih => rw [keepServices, List.length_cons, ih, List.length_cons]

theorem total_add_keepCharacteristics (h : total ≤ maxDescriptors) (l : List GattCharacteristicInfo) :
    total + descriptorCount (keepCharacteristics total l) ≤ maxDescriptors := by
  induction l generalizing total with
  | nil => exact h
  | cons characteristic rest ih =>
    rw [keepCharacteristics, descriptorCount_cons, ← Nat.add_assoc]
    exact ih (total_add_length_upTo h)

theorem Totals.Fits.keepService (h : t.Fits) (service : GattServiceInfo) :
    (t.add (keepService t service)).Fits where
  includes := total_add_length_upTo h.includes
  characteristics := by
    rw [Totals.add, BleClientHid.keepService, length_keepCharacteristics]
    exact total_add_length_upTo h.characteristics
  descriptors := total_add_keepCharacteristics h.descriptors _

theorem Totals.Fits.keepServices (h : t.Fits) (services : List GattServiceInfo) :
    (totals t (keepServices t services)).Fits := by
  induction services generalizing t with
  | nil => exact h
  | cons service rest ih => exact ih (h.keepService service)

end

/-! ## Nothing left out -/

section

variable {total : Nat} {t : Totals}

theorem keepCharacteristics_eq_self_iff (h : total ≤ maxDescriptors) (l : List GattCharacteristicInfo) :
    keepCharacteristics total l = l ↔ total + descriptorCount l ≤ maxDescriptors := by
  induction l generalizing total with
  | nil => simpa [keepCharacteristics] using h
  | cons characteristic rest ih =>
    have hhead : keepCharacteristic total characteristic = characteristic ↔
        total + characteristic.descriptors.length ≤ maxDescriptors := by
      rw [← upTo_eq_self_iff h]
      exact ⟨congrArg GattCharacteristicInfo.descriptors, fun hself => by rw [keepCharacteristic, hself]⟩
    rw [keepCharacteristics, List.cons.injEq, descriptorCount_cons, ← Nat.add_assoc]
    constructor
    · rintro ⟨hself, hrest⟩
      rw [hself] at hrest
      exact (ih (hhead.mp hself)).mp hrest
    · intro hfits
      have hself := hhead.mpr (Nat.le_trans (Nat.le_add_right _ _) hfits)
      rw [hself]
      exact ⟨rfl, (ih (hhead.mp hself)).mpr hfits⟩

theorem keepCharacteristics_eq_self_of_lt {l : List GattCharacteristicInfo}
    (h : total + descriptorCount (keepCharacteristics total l) < maxDescriptors) :
    keepCharacteristics total l = l := by
  induction l generalizing total with
  | nil => rfl
  | cons characteristic rest ih =>
    rw [keepCharacteristics, descriptorCount_cons, ← Nat.add_assoc] at h
    have hself : upTo maxDescriptors total characteristic.descriptors = characteristic.descriptors :=
      upTo_eq_self_of_lt (Nat.lt_of_le_of_lt (Nat.le_add_right _ _) h)
    rw [keepCharacteristics, ih h, keepCharacteristic, hself]

theorem keepService_eq_self_iff (h : t.Fits) (service : GattServiceInfo) :
    keepService t service = service ↔ (t.add service).Fits := by
  have hlen (l : List GattCharacteristicInfo) : keepCharacteristics t.descriptors
      (upTo maxCharacteristics t.characteristics l) = l → upTo maxCharacteristics t.characteristics l = l := by
    intro hself
    have hlength := congrArg List.length hself
    rw [length_keepCharacteristics] at hlength
    exact (upTo_isPrefix _ _ l).eq_of_length hlength
  constructor
  · intro hself
    have hincludes := congrArg GattServiceInfo.includedServices hself
    have hcharacteristics := congrArg GattServiceInfo.characteristics hself
    dsimp only [keepService] at hincludes hcharacteristics
    have hupTo := hlen _ hcharacteristics
    rw [hupTo] at hcharacteristics
    exact {
      includes := (upTo_eq_self_iff h.includes).mp hincludes
      characteristics := (upTo_eq_self_iff h.characteristics).mp hupTo
      descriptors := (keepCharacteristics_eq_self_iff h.descriptors _).mp hcharacteristics }
  · intro hfits
    have hincludes := (upTo_eq_self_iff h.includes).mpr hfits.includes
    have hupTo := (upTo_eq_self_iff h.characteristics).mpr hfits.characteristics
    have hcharacteristics := (keepCharacteristics_eq_self_iff h.descriptors _).mpr hfits.descriptors
    rw [keepService, hincludes, hupTo, hcharacteristics]

theorem keepServices_eq_self_iff (h : t.Fits) (services : List GattServiceInfo) :
    keepServices t services = services ↔ (totals t services).Fits := by
  induction services generalizing t with
  | nil => exact ⟨fun _ => h, fun _ => rfl⟩
  | cons service rest ih =>
    rw [keepServices, List.cons.injEq, totals_cons]
    constructor
    · rintro ⟨hself, hrest⟩
      rw [hself] at hrest
      exact (ih ((keepService_eq_self_iff h service).mp hself)).mp hrest
    · intro hfits
      have hself := (keepService_eq_self_iff h service).mpr hfits.of_totals
      rw [hself]
      exact ⟨rfl, (ih hfits.of_totals).mpr hfits⟩

end

/-! ## What is reported -/

/-- The limits that the inventory of one service reports. The count of included services has to
exceed its limit, the other two only to meet theirs. -/
def Marks (t : Totals) (service : GattServiceInfo) : Prop :=
  let kept := keepService t service
  maxIncludedServices < t.includes + service.includedServices.length ∨
    (kept.characteristics ≠ [] ∧ maxDescriptors ≤ (t.add kept).descriptors) ∨
      maxCharacteristics ≤ (t.add kept).characteristics

def AnyMarks (t : Totals) : List GattServiceInfo → Prop
  | [] => False
  | service :: rest => Marks t service ∨ AnyMarks (t.add (keepService t service)) rest

section

variable {t : Totals}

theorem keepService_of_not_marks (h : t.Fits) {service : GattServiceInfo} (hreported : ¬Marks t service) :
    keepService t service = service := by
  simp only [Marks, not_or, not_and, Nat.not_lt, Nat.not_le, Totals.add, keepService,
    length_keepCharacteristics] at hreported
  obtain ⟨hincludes, hdescriptors, hcharacteristics⟩ := hreported
  have hupTo := upTo_eq_self_of_lt hcharacteristics
  rw [hupTo] at hdescriptors
  have hkept : keepCharacteristics t.descriptors service.characteristics = service.characteristics := by
    cases hchars : service.characteristics with
    | nil => rfl
    | cons characteristic rest =>
      rw [hchars] at hdescriptors
      exact keepCharacteristics_eq_self_of_lt (hdescriptors (by simp [keepCharacteristics]))
  rw [keepService, (upTo_eq_self_iff h.includes).mpr hincludes, hupTo, hkept]

theorem keepServices_of_not_marks (h : t.Fits) {services : List GattServiceInfo}
    (hreported : ¬AnyMarks t services) : keepServices t services = services := by
  induction services generalizing t with
  | nil => rfl
  | cons service rest ih =>
    rw [AnyMarks, not_or] at hreported
    have hself := keepService_of_not_marks h hreported.1
    rw [keepServices, ih (h.keepService service) hreported.2, hself]

theorem marks_of_eq_self (h : t.Fits) {service : GattServiceInfo} (hself : keepService t service = service)
    (hdescriptors : t.descriptors < maxDescriptors) :
    Marks t service ↔ maxCharacteristics ≤ (t.add service).characteristics ∨
      maxDescriptors ≤ (t.add service).descriptors := by
  have hfits := (keepService_eq_self_iff h service).mp hself
  have hincludes : ¬maxIncludedServices < t.includes + service.includedServices.length :=
    Nat.not_lt.mpr hfits.includes
  have hsome : maxDescriptors ≤ (t.add service).descriptors → service.characteristics ≠ [] := by
    intro hfull hnil
    rw [Totals.add, hnil] at hfull
    exact absurd hfull (Nat.not_le.mpr hdescriptors)
  simp only [Marks, hself]
  constructor
  · rintro (hover | ⟨-, hfull⟩ | hfull)
    · exact absurd hover hincludes
    · exact .inr hfull
    · exact .inl hfull
  · rintro (hfull | hfull)
    · exact .inr (.inr hfull)
    · exact .inr (.inl ⟨hsome hfull, hfull⟩)

/-- Of a database that fits, what is reported is a limit that it meets. -/
theorem anyMarks_of_fits {services : List GattServiceInfo} (hfits : (totals t services).Fits)
    (hcharacteristics : t.characteristics < maxCharacteristics) (hdescriptors : t.descriptors < maxDescriptors) :
    AnyMarks t services ↔ maxCharacteristics ≤ (totals t services).characteristics ∨
      maxDescriptors ≤ (totals t services).descriptors := by
  induction services generalizing t with
  | nil =>
    simp only [AnyMarks, totals, List.foldl_nil, false_iff, not_or]
    exact ⟨Nat.not_le.mpr hcharacteristics, Nat.not_le.mpr hdescriptors⟩
  | cons service rest ih =>
    have hnow : t.Fits := hfits.of_totals
    rw [totals_cons] at hfits
    have hself := (keepService_eq_self_iff hnow service).mpr hfits.of_totals
    have hhead := marks_of_eq_self hnow hself hdescriptors
    rw [AnyMarks, hself, hhead]
    by_cases hmet : maxCharacteristics ≤ (t.add service).characteristics ∨
        maxDescriptors ≤ (t.add service).descriptors
    · have hlater := hmet.imp (Nat.le_trans · (characteristics_le_totals _ rest))
        (Nat.le_trans · (descriptors_le_totals _ rest))
      exact ⟨fun _ => hlater, fun _ => .inl hmet⟩
    · rw [or_iff_right hmet]
      rw [not_or, Nat.not_le, Nat.not_le] at hmet
      exact ih hfits hmet.1 hmet.2

end

/-! ## In order, under its own parent -/

def CharacteristicPart (kept characteristic : GattCharacteristicInfo) : Prop :=
  ∃ descriptors, descriptors <+: characteristic.descriptors ∧ kept = { characteristic with descriptors }

def ServicePart (kept service : GattServiceInfo) : Prop :=
  ∃ includedServices characteristics, includedServices <+: service.includedServices ∧
    Front CharacteristicPart characteristics service.characteristics ∧
      kept = { service with includedServices, characteristics }

theorem keepCharacteristics_parts (total : Nat) (l : List GattCharacteristicInfo) :
    List.Forall₂ CharacteristicPart (keepCharacteristics total l) l := by
  induction l generalizing total with
  | nil => exact .nil
  | cons characteristic rest ih => exact .cons ⟨_, upTo_isPrefix _ _ _, rfl⟩ (ih _)

theorem keepServices_parts (t : Totals) (services : List GattServiceInfo) :
    List.Forall₂ ServicePart (keepServices t services) services := by
  induction services generalizing t with
  | nil => exact .nil
  | cons service rest ih =>
    have hcharacteristics : Front CharacteristicPart (keepService t service).characteristics
        service.characteristics := .of_take _ (keepCharacteristics_parts _ _)
    exact .cons ⟨_, _, upTo_isPrefix _ _ _, hcharacteristics, rfl⟩ (ih _)

end BleClientHid
