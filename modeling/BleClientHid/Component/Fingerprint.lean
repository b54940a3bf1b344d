import BleClientHid.Component.InventoryLaw
import BleClientHid.Lib.Concatenation

/-! # The fingerprint of the database

The text that the inventory hashes, and the topology that can be read back from it.
-/

namespace BleClientHid

open Lib BLEClientHID

/-! ## Topology -/

structure CharacteristicTopology where
  uuid : String
  properties : Nat
  descriptors : List String
  deriving DecidableEq, Repr

structure ServiceTopology where
  uuid : String
  primary : Bool
  includedServices : List String
  characteristics : List CharacteristicTopology
  deriving DecidableEq, Repr

section

variable (uuidString : ESPBTUUID → String)

def characteristicTopology (characteristic : GattCharacteristicInfo) : CharacteristicTopology :=
  { uuid := uuidString characteristic.uuid
    properties := characteristic.properties
    descriptors := characteristic.descriptors.map fun descriptor => uuidString descriptor.uuid }

def serviceTopology (service : GattServiceInfo) : ServiceTopology :=
  { uuid := uuidString service.uuid
    primary := service.primary
    includedServices := service.includedServices.map fun info => uuidString info.uuid
    characteristics := service.characteristics.map (characteristicTopology uuidString) }

/-- No handle and no range of handles. -/
def topology (db : List GattServiceInfo) : List ServiceTopology := db.map (serviceTopology uuidString)

theorem topology_records (db : List GattServiceInfo) :
    topology uuidString (records db) = topology uuidString db := by
  have hrecord (offset : Nat) (service : GattServiceInfo) :
      serviceTopology uuidString (recordService offset service) = serviceTopology uuidString service := by
    simp only [serviceTopology, recordService, List.map_map]
    rfl
  exact List.ext_getElem (by simp [topology, records]) fun i _ _ => by simp [topology, records, hrecord]

end

/-! ## Tokens -/

/-- What the inventory adds to the text at once. -/
inductive FingerprintToken where
  | service (uuid : String) (primary : Bool)
  | includedService (uuid : String)
  | characteristic (uuid : String) (properties : Nat)
  | descriptor (uuid : String)
  deriving DecidableEq, Repr

namespace FingerprintToken

def uuid : FingerprintToken → String
  | .service uuid _ => uuid
  | .includedService uuid => uuid
  | .characteristic uuid _ => uuid
  | .descriptor uuid => uuid

def tag : FingerprintToken → Char
  | .service .. => 'S'
  | .includedService _ => 'I'
  | .characteristic .. => 'C'
  | .descriptor _ => 'D'

def tail : FingerprintToken → List Char
  | .service _ primary => [':', if primary then 'P' else 'S', ';']
  | .includedService _ => [';']
  | .characteristic _ properties => ':' :: (Nat.toDigits 10 properties ++ [';'])
  | .descriptor _ => [';']

def text (token : FingerprintToken) : List Char := token.tag :: ':' :: (token.uuid.toList ++ token.tail)

def IsService : FingerprintToken → Prop
  | .service .. => True
  | _ => False

def IsCharacteristic : FingerprintToken → Prop
  | .characteristic .. => True
  | _ => False

theorem not_mem_toDigits (n : Nat) : ';' ∉ Nat.toDigits 10 n := fun hmem =>
  absurd (Nat.isDigit_of_mem_toDigits (by decide) (by decide) hmem) (by decide)

theorem toDigits_injective : Function.Injective (Nat.toDigits 10) := fun m n h => by
  rw [← Nat.ofDigitChars_ten_toDigits (n := m), h, Nat.ofDigitChars_ten_toDigits]

/-- The tag and the length of the UUID tell the fields apart, `;` ends the last one. -/
theorem eq_of_prefix {token token' : FingerprintToken} (hlen : token.uuid.length = token'.uuid.length)
    (h : token.text <+: token'.text) : token = token' := by
  rw [text, text, List.cons_prefix_cons, List.cons_prefix_cons] at h
  obtain ⟨htag, -, hrest⟩ := h
  obtain ⟨huuid, htail⟩ := prefix_of_same_length (by rw [String.length_toList, String.length_toList, hlen]) hrest
  rw [String.toList_inj] at huuid
  cases token <;> cases token' <;> simp only [tag, Char.reduceEq, uuid] at htag huuid
  case service.service primary _ primary' =>
    subst huuid
    cases primary <;> cases primary' <;> simp [tail] at htail ⊢
  case includedService.includedService => rw [huuid]
  case characteristic.characteristic properties _ properties' =>
    have hdigits := eq_of_delimited (not_mem_toDigits properties') (List.cons_prefix_cons.mp htail).2
    rw [huuid, toDigits_injective hdigits]
  case descriptor.descriptor => rw [huuid]

theorem prefixFree (n : Nat) : PrefixFree text {token | token.uuid.length = n} where
  nonempty _ _ := List.cons_ne_nil _ _
  eq_of_prefix _ hlen _ hlen' h := eq_of_prefix (hlen.trans hlen'.symm) h

end FingerprintToken
open FingerprintToken

def CharacteristicTopology.tokens (characteristic : CharacteristicTopology) : List FingerprintToken :=
  .characteristic characteristic.uuid characteristic.properties :: characteristic.descriptors.map .descriptor

def ServiceTopology.tokens (service : ServiceTopology) : List FingerprintToken :=
  .service service.uuid service.primary ::
    (service.includedServices.map .includedService ++ service.characteristics.flatMap (·.tokens))

/-! ## From the tokens to the topology -/

theorem CharacteristicTopology.tokens_marked (characteristic : CharacteristicTopology) :
    Marked IsCharacteristic characteristic.tokens := by
  refine ⟨_, _, rfl, trivial, fun token hmem => ?_⟩
  obtain ⟨uuid, -, rfl⟩ := List.mem_map.mp hmem
  exact id

theorem ServiceTopology.tokens_marked (service : ServiceTopology) : Marked IsService service.tokens := by
  refine ⟨_, _, rfl, trivial, fun token hmem => ?_⟩
  rcases List.mem_append.mp hmem with hincluded | hcharacteristic
  · obtain ⟨uuid, -, rfl⟩ := List.mem_map.mp hincluded
    exact id
  · obtain ⟨characteristic, -, htoken⟩ := List.mem_flatMap.mp hcharacteristic
    rcases List.mem_cons.mp htoken with rfl | hdescriptor
    · exact id
    · obtain ⟨uuid, -, rfl⟩ := List.mem_map.mp hdescriptor
      exact id

theorem CharacteristicTopology.tokens_injective : Function.Injective CharacteristicTopology.tokens := by
  rintro ⟨uuid, properties, descriptors⟩ ⟨uuid', properties', descriptors'⟩ h
  simp only [tokens, List.cons.injEq, characteristic.injEq] at h
  obtain ⟨⟨rfl, rfl⟩, hdescriptors⟩ := h
  rw [List.map_injective_iff.mpr (fun _ _ => descriptor.inj) hdescriptors]

theorem ServiceTopology.tokens_injective : Function.Injective ServiceTopology.tokens := by
  rintro ⟨uuid, primary, includedServices, characteristics⟩ ⟨uuid', primary', includedServices', characteristics'⟩ h
  simp only [tokens, List.cons.injEq, service.injEq] at h
  obtain ⟨⟨rfl, rfl⟩, hrest⟩ := h
  have hincluded (l : List String) : ∀ token ∈ l.map includedService, ¬IsCharacteristic token := by
    rintro token hmem
    obtain ⟨uuid, -, rfl⟩ := List.mem_map.mp hmem
    exact id
  have hmarked := CharacteristicTopology.tokens_marked
  obtain ⟨hincludes, hcharacteristics⟩ := append_inj_of_mark (hincluded _) (hincluded _)
    (head_of_marked hmarked characteristics) (head_of_marked hmarked characteristics') hrest
  rw [List.map_injective_iff.mpr (fun _ _ => includedService.inj) hincludes,
    flatMap_injective_of_marked hmarked CharacteristicTopology.tokens_injective hcharacteristics]

/-! ## From the topology to the text -/

section

variable {platform : Platform} {n : Nat}

theorem includeEntry_toList (info : GattIncludedServiceInfo) : (includeEntry platform info).toList =
    [includedService (platform.uuidString info.uuid)].flatMap text := by
  simp [includeEntry, text, tag, FingerprintToken.uuid, tail]

theorem descriptorEntry_toList (info : GattDescriptorInfo) : (descriptorEntry platform info).toList =
    [descriptor (platform.uuidString info.uuid)].flatMap text := by
  simp [descriptorEntry, text, tag, FingerprintToken.uuid, tail]

theorem characteristicHead_toList (info : GattCharacteristicInfo) : (characteristicHead platform info).toList =
    (characteristic (platform.uuidString info.uuid) info.properties).text := by
  simp [characteristicHead, text, tag, FingerprintToken.uuid, tail]

theorem serviceHead_toList (info : GattServiceInfo) : (serviceHead platform info).toList =
    (service (platform.uuidString info.uuid) info.primary).text := by
  cases hprimary : info.primary <;> simp [serviceHead, text, tag, FingerprintToken.uuid, tail, hprimary]

theorem toList_join_map {α : Type} {entry : α → String} {tokens : α → List FingerprintToken}
    (h : ∀ a, (entry a).toList = (tokens a).flatMap text) (l : List α) :
    (String.join (l.map entry)).toList = (l.flatMap tokens).flatMap text := by
  rw [String.toList_join, List.flatMap_map, List.flatMap_assoc]
  exact congrArg (l.flatMap ·) (funext h)

theorem characteristicEntry_toList (info : GattCharacteristicInfo) : (characteristicEntry platform info).toList =
    (characteristicTopology platform.uuidString info).tokens.flatMap text := by
  rw [characteristicEntry, String.toList_append, characteristicHead_toList, toList_join_map descriptorEntry_toList,
    ← List.map_eq_flatMap, CharacteristicTopology.tokens, List.flatMap_cons]
  simp only [characteristicTopology, List.map_map, Function.comp_def]

theorem serviceEntry_toList (info : GattServiceInfo) : (serviceEntry platform info).toList =
    (serviceTopology platform.uuidString info).tokens.flatMap text := by
  rw [serviceEntry, String.toList_append, String.toList_append, serviceHead_toList,
    toList_join_map includeEntry_toList, toList_join_map characteristicEntry_toList, ← List.map_eq_flatMap,
    ServiceTopology.tokens, List.flatMap_cons, List.flatMap_append]
  simp only [serviceTopology, List.map_map, List.flatMap_map, Function.comp_def]

theorem toList_join_services (db : List GattServiceInfo) : (String.join (db.map (serviceEntry platform))).toList =
    ((topology platform.uuidString db).flatMap (·.tokens)).flatMap text := by
  rw [toList_join_map serviceEntry_toList, topology, List.flatMap_map]

theorem length_of_mem_tokens {uuidString : ESPBTUUID → String} (hlength : ∀ uuid, (uuidString uuid).length = n)
    (db : List GattServiceInfo) :
    ∀ token ∈ (topology uuidString db).flatMap (·.tokens), token.uuid.length = n := by
  intro token hmem
  obtain ⟨service, hservice, htoken⟩ := List.mem_flatMap.mp hmem
  obtain ⟨info, -, rfl⟩ := List.mem_map.mp hservice
  rcases List.mem_cons.mp htoken with rfl | hrest
  · exact hlength info.uuid
  · rcases List.mem_append.mp hrest with hincluded | hcharacteristic
    · obtain ⟨uuid, huuid, rfl⟩ := List.mem_map.mp hincluded
      obtain ⟨included, -, rfl⟩ := List.mem_map.mp huuid
      exact hlength included.uuid
    · obtain ⟨characteristic, hchar, htoken⟩ := List.mem_flatMap.mp hcharacteristic
      obtain ⟨info, -, rfl⟩ := List.mem_map.mp hchar
      rcases List.mem_cons.mp htoken with rfl | hdescriptor
      · exact hlength info.uuid
      · obtain ⟨uuid, huuid, rfl⟩ := List.mem_map.mp hdescriptor
        obtain ⟨descriptor, -, rfl⟩ := List.mem_map.mp huuid
        exact hlength descriptor.uuid

end

/-! ## The fingerprint -/

/-- The text that the inventory hashes. -/
def inventoryText (env : Env) (s : BLEClientHID) : String :=
  (limitServices (inventoryServices env maxServices 0 (startInventory s)).1).normalized

section

variable {env env' : Env} {db db' : List GattServiceInfo}

theorem inventoryText_hashed (h : Faithful env.gatt db) (s : BLEClientHID) :
    (s.inventoryGattDatabase env).1.gattProfileHash = hashText env (inventoryText env s) := by
  rw [inventoryGattDatabase_of_done (limitServices_spec h s rfl).1]
  rfl

theorem inventoryText_toList (h : Faithful env.gatt db) (hfits : FitsInventory db) (s : BLEClientHID) :
    (inventoryText env s).toList = ((topology env.platform.uuidString db).flatMap (·.tokens)).flatMap text := by
  have htext := (limitServices_spec h s rfl).2.text
  rw [kept_eq_records_iff.mpr hfits] at htext
  have hstart : (startInventory s).normalized = "" := rfl
  rw [hstart, String.empty_append] at htext
  rw [inventoryText, htext, toList_join_services, topology_records]

theorem topology_eq_of_text {uuidString : ESPBTUUID → String} {n : Nat}
    (hlength : ∀ uuid, (uuidString uuid).length = n)
    (h : ((topology uuidString db).flatMap (·.tokens)).flatMap text =
      ((topology uuidString db').flatMap (·.tokens)).flatMap text) :
    topology uuidString db = topology uuidString db' := by
  have htokens := (FingerprintToken.prefixFree n).injOn (length_of_mem_tokens hlength db)
    (length_of_mem_tokens hlength db') h
  exact flatMap_injective_of_marked ServiceTopology.tokens_marked ServiceTopology.tokens_injective htokens

/-- Two databases within the limits have one text exactly when they have one topology. -/
theorem fingerprint_topology {n : Nat} (hplatform : env'.platform.uuidString = env.platform.uuidString)
    (hlength : ∀ uuid, (env.platform.uuidString uuid).length = n) (h : Faithful env.gatt db)
    (h' : Faithful env'.gatt db') (hfits : FitsInventory db) (hfits' : FitsInventory db') (s s' : BLEClientHID) :
    ((s.inventoryGattDatabase env).1.gattProfileHash = hashText env (inventoryText env s) ∧
      (s'.inventoryGattDatabase env').1.gattProfileHash = hashText env' (inventoryText env' s')) ∧
    (inventoryText env s = inventoryText env' s' ↔
      topology env.platform.uuidString db = topology env.platform.uuidString db') := by
  refine ⟨⟨inventoryText_hashed h s, inventoryText_hashed h' s'⟩, ?_⟩
  rw [← String.toList_inj, inventoryText_toList h hfits, inventoryText_toList h' hfits', hplatform]
  constructor
  · exact topology_eq_of_text hlength
  · intro hsame
    rw [hsame]

end

def movedKeyboardServices : List GattServiceInfo :=
  [{ uuid := .uuid16 0x1812, startHandle := 101, endHandle := 130
     characteristics := [{ reportMapCharacteristic with handle := 113 }, { reportCharacteristic with
       handle := 115
       descriptors := [{ uuid := .uuid16 0x2902, handle := 117 }, { uuid := .uuid16 0x2908, handle := 116 }] }] }]

theorem examplePlatform_length (uuid : ESPBTUUID) : (examplePlatform.uuidString uuid).length = 36 := by
  simp only [examplePlatform, String.length_append, String.length_ofList, List.map_cons, List.map_nil,
    List.length_cons, List.length_nil]
  decide

/-- It has the same text. -/
theorem fingerprint_topology_moved :
    inventoryText (exampleEnv keyboardServices) {} = inventoryText (exampleEnv movedKeyboardServices) {} := by
  have h : Faithful (exampleEnv keyboardServices).gatt keyboardServices :=
    ofServices_faithful ⟨keyboardServices, by decide⟩
  have h' : Faithful (exampleEnv movedKeyboardServices).gatt movedKeyboardServices :=
    ofServices_faithful ⟨movedKeyboardServices, by decide⟩
  have hlength (uuid : ESPBTUUID) : ((exampleEnv keyboardServices).platform.uuidString uuid).length = 36 :=
    examplePlatform_length uuid
  have hplatform : (exampleEnv movedKeyboardServices).platform.uuidString =
      (exampleEnv keyboardServices).platform.uuidString := rfl
  exact (fingerprint_topology hplatform hlength h h' ⟨by decide, ⟨by decide, by decide, by decide⟩⟩
    ⟨by decide, ⟨by decide, by decide, by decide⟩⟩ {} {}).2.mpr (by decide)

end BleClientHid
