import Mathlib.Data.Nat.Bitwise
import SignalProtocol.Library.Triple
import SignalProtocol.Proof.AddressBinding
import SignalProtocol.Proof.ErasureCode
import SignalProtocol.SealedSender.MultiRecipient

/-! # Multi-recipient messages read back

Every part that the parser reads starts where the part before it ends, and ends within the data. -/

namespace SignalProtocol.SealedSender

open Results List

variable {parsed : ParsedRecipients} {serviceId : ServiceId} {registrationId : ℕ} {uuid : Bytes}
  {entries : List Bytes} {byte : UInt8} {bytesRead shift : ℕ} (isLast : Bool)

/-! ## The parts that are read -/

/-- The parts that were read follow each other within the data. -/
structure Cursor.Tracked (data : Bytes) (cursor : Cursor) : Prop where
  within : cursor.offset ≤ data.length
  behind : ∀ part ∈ cursor.reads, part.1 + part.2 ≤ cursor.offset
  ordered : cursor.reads.Pairwise fun later earlier => earlier.1 + earlier.2 ≤ later.1

def Room (data : Bytes) (count : ℕ) (cursor : Cursor) : Prop :=
  cursor.Tracked data ∧ cursor.offset + count ≤ data.length

variable {data : Bytes} {count more : ℕ} {cursor : Cursor}

theorem Cursor.Tracked.read (htracked : cursor.Tracked data)
    (hroom : cursor.offset + count ≤ data.length) : (cursor.read count).Tracked data := by
  refine ⟨hroom, ?_, ?_⟩
  · intro part hpart
    obtain rfl | hprev := mem_cons.mp hpart
    · exact Nat.le_refl _
    · exact Nat.le_trans (htracked.behind part hprev) (Nat.le_add_right _ _)
  · exact pairwise_cons.mpr ⟨fun part hpart => htracked.behind part hpart, htracked.ordered⟩

theorem Room.read (hroom : Room data (count + more) cursor) :
    Room data more (cursor.read count) := by
  have hbound := hroom.2
  have hoffset : (cursor.read count).offset = cursor.offset + count := rfl
  refine ⟨hroom.1.read ?_, ?_⟩
  · omega
  · omega

theorem Room.anywhere (hroom : Room data count cursor) : Room data 0 cursor :=
  ⟨hroom.1, hroom.1.within⟩

theorem Cursor.Tracked.room (htracked : cursor.Tracked data) : Room data 0 cursor :=
  ⟨htracked, htracked.within⟩

theorem checkLeft_room (count : ℕ) (message : String) :
    Triple (Room data 0) (checkLeft count message data) (fun _ => Room data count)
      (Room data 0) := by
  refine Triple.get_eq.bind fun found => ?_
  refine .ite (fun _ => .throw _ fun _ hstate => hstate.2) fun henough => .pure _ ?_
  rintro state ⟨rfl, hroom⟩
  exact ⟨hroom.1, Nat.le_of_not_lt henough⟩

theorem readSlice_room (count more : ℕ) :
    Triple (Room data (count + more)) (readSlice count data) (fun _ => Room data more)
      (Room data 0) := by
  refine Triple.get_eq.bind fun found => ?_
  have hmoved : Triple (fun state => found = state ∧ Room data (count + more) state)
      (modify fun state => state.read count : Reader PUnit) (fun _ => Room data more)
      (Room data 0) :=
    .modify _ fun state hstate => hstate.2.read
  exact hmoved.bind fun _ => .pure _ fun _ hroom => hroom

theorem readSlice_last (count : ℕ) :
    Triple (Room data count) (readSlice count data) (fun _ => Room data 0) (Room data 0) :=
  readSlice_room count 0

theorem decodeVarintLoop_error {value : ℕ} {bytes : Bytes} {error : ProtocolError}
    (herr : Proto.decodeVarintLoop bytesRead shift value bytes = .error error) :
    5 ≤ bytesRead + bytes.length := by
  induction bytes generalizing bytesRead shift value with
  | nil => cases herr
  | cons byte rest ih =>
    rw [Proto.decodeVarintLoop] at herr
    split at herr
    · cases herr
    · split at herr
      · rw [length_cons]
        omega
      · have hrest := ih herr
        rw [length_cons]
        omega

theorem decodeVarintLoop_length {value : ℕ} {bytes : Bytes} {read : ℕ × Bytes}
    (hread : Proto.decodeVarintLoop bytesRead shift value bytes = .ok read) :
    read.2.length ≤ bytes.length := by
  induction bytes generalizing bytesRead shift value with
  | nil =>
    cases hread
    exact Nat.le_refl _
  | cons byte rest ih =>
    rw [Proto.decodeVarintLoop] at hread
    rw [length_cons]
    split at hread
    · cases hread
      exact Nat.le_succ _
    · split at hread
      · cases hread
      · exact Nat.le_succ_of_le (ih hread)

theorem readVarint_room :
    Triple (Room data 0) (readVarint data) (fun _ => Room data 0) (Room data 0) := by
  apply Triple.of_finalState
  intro state hroom
  have hwithin := hroom.1.within
  have hleft : (data.drop state.offset).length = data.length - state.offset := length_drop
  rw [readVarint]
  split
  · next value rest hread =>
    have hrest := decodeVarintLoop_length hread
    refine Room.read ⟨hroom.1, ?_⟩
    dsimp only at hrest
    omega
  · next error herr =>
    have hfive := decodeVarintLoop_error herr
    refine Room.read ⟨hroom.1, ?_⟩
    omega

theorem Room.device (hroom : Room data 0 cursor) (hlong : ¬ data.length < cursor.offset + 3) :
    Room data 0 ((cursor.read 1).read 2) := by
  have hthree : Room data (1 + 2) cursor := ⟨hroom.1, Nat.le_of_not_lt hlong⟩
  exact hthree.read.read

@[simp] theorem finalState_consDevice (device : Device)
    (rest : EStateM.Result ProtocolError Cursor (List Device)) :
    finalState (consDevice device rest) = finalState rest := by
  cases rest <;> rfl

theorem consDevice_eq_ok_iff {device : Device}
    {rest : EStateM.Result ProtocolError Cursor (List Device)} {devices : List Device}
    {last : Cursor} :
    consDevice device rest = .ok devices last ↔
      ∃ others, rest = .ok others last ∧ devices = device :: others := by
  cases rest with
  | ok others next => simp [consDevice, and_comm, eq_comm]
  | error error next => simp [consDevice]

theorem readDevices_finalState (hroom : Room data 0 cursor) :
    Room data 0 (finalState (readDevices data cursor)) := by
  fun_induction readDevices data cursor with
  | case1 cursor hshort => exact hroom
  | case2 cursor hlong deviceId regIdWithFlag device hmore ih =>
    rw [finalState_consDevice]
    exact ih (hroom.device hlong)
  | case3 cursor hlong deviceId regIdWithFlag device hlast => exact hroom.device hlong

theorem readDevices_room :
    Triple (Room data 0) (readDevices data) (fun _ => Room data 0) (Room data 0) :=
  .of_finalState fun _ hroom => readDevices_finalState hroom

theorem readRecipient_room (parsed : ParsedRecipients) :
    Triple (Room data 0) (readRecipient data parsed) (fun _ => Room data 0) (Room data 0) := by
  have hstop {count : ℕ} (cursor : Cursor) (hroom : Room data count cursor) : Room data 0 cursor :=
    hroom.anywhere
  refine (checkLeft_room SERVICE_ID_WIRE_SIZE _).bind fun _ => ?_
  refine (readSlice_room 1 UUID_BYTES).bind fun _ => ?_
  refine (readSlice_last UUID_BYTES).bind fun uuidBytes => ?_
  refine Triple.andThen (.fromResult (fun _ _ _ hroom => hroom) fun _ hroom => hroom)
    fun serviceId => ?_
  refine (checkLeft_room 1 _).bind fun _ => ?_
  refine Triple.get_eq.bind fun found => ?_
  refine .ite (fun _ => ?_) fun _ => ?_
  · refine ((readSlice_last 1).weaken (fun _ hstate => hstate.2) fun _ _ hroom => hroom).bind
      fun _ => ?_
    exact .pure _ fun _ hroom => hroom
  · refine (readDevices_room.weaken (fun _ hstate => hstate.2.anywhere) fun _ _ hroom =>
      hroom).bind fun devices => ?_
    refine (checkLeft_room (ENCRYPTED_KEY_SIZE + AUTH_TAG_SIZE) _).bind fun _ => ?_
    refine (readSlice_room ENCRYPTED_KEY_SIZE AUTH_TAG_SIZE).bind fun key => ?_
    refine (readSlice_last AUTH_TAG_SIZE).bind fun tag => ?_
    exact .pure _ fun _ hroom => hroom

theorem readRecipients_room (count : ℕ) (parsed : ParsedRecipients) :
    Triple (Room data 0) (readRecipients data count parsed) (fun _ => Room data 0)
      (Room data 0) := by
  induction count generalizing parsed with
  | zero => exact .pure _ fun _ hroom => hroom
  | succ count ih => exact (readRecipient_room parsed).bind ih

theorem deserializeSentMessage_room :
    Triple (Room data 0) (deserializeSentMessage data) (fun _ => Room data 0) (Room data 0) := by
  refine (checkLeft_room 1 _).bind fun _ => ?_
  refine Triple.get_eq.bind fun found => ?_
  refine ((readSlice_last 1).weaken (fun _ hstate => hstate.2) fun _ _ hroom => hroom).bind
    fun _ => ?_
  refine .ite (fun _ => .throw _ fun _ hroom => hroom) fun _ => ?_
  refine readVarint_room.bind fun count => ?_
  refine (readRecipients_room count {}).bind fun parsed => ?_
  refine (checkLeft_room EPHEMERAL_PUBLIC_SIZE _).bind fun _ => ?_
  refine (readSlice_last EPHEMERAL_PUBLIC_SIZE).bind fun ephemeralPublic => ?_
  refine Triple.get_eq.bind fun found => ?_
  refine ((readSlice_last (data.length - found.offset)).weaken ?_ fun _ _ hroom => hroom).bind
    fun _ => .pure _ fun _ hroom => hroom
  rintro state ⟨rfl, hroom⟩
  have hwithin := hroom.1.within
  exact ⟨hroom.1, by omega⟩

/-- Whatever the bytes are, the parts that are read follow each other and end within them. -/
theorem deserializeSentMessage_tracked (data : Bytes) :
    (finalState (deserializeSentMessage data Cursor.start)).Tracked data := by
  have hstart : Cursor.start.Tracked data := by
    refine ⟨Nat.zero_le _, ?_, List.Pairwise.nil⟩
    rintro part ⟨⟩
  exact (deserializeSentMessage_room.finalState hstart.room).1

/-- At the start of `bytes`, wherever they stand, the reader returns `value` and moves past them. -/
def Parses {α : Type} (reading : Bytes → Reader α) (bytes : Bytes) (value : α) : Prop :=
  ∀ (front rest : Bytes) (cursor : Cursor), cursor.offset = front.length →
    ∃ next, reading (front ++ bytes ++ rest) cursor = .ok value next ∧
      next.offset = front.length + bytes.length

section Parses

variable {α β : Type} {first : Bytes → Reader α} {next : α → Bytes → Reader β} {bytes rest : Bytes}
variable {value : α} {result : β}

theorem byteAt_append (front bytes : Bytes) (offset : ℕ) :
    byteAt (front ++ bytes) (front.length + offset) = bytes.getD offset 0 := by
  rw [byteAt, getD_append_right _ _ _ _ (Nat.le_add_right _ _), Nat.add_sub_cancel_left]

theorem Parses.pure (value : α) : Parses (fun _ => pure value) [] value := by
  intro front rest cursor hoffset
  exact ⟨cursor, rfl, hoffset⟩

theorem Parses.bind (hfst : Parses first bytes value) (hnext : Parses (next value) rest result) :
    Parses (fun data => first data >>= fun value => next value data) (bytes ++ rest) result := by
  intro front after cursor hoffset
  obtain ⟨middle, hread, hmiddle⟩ := hfst front (rest ++ after) cursor hoffset
  obtain ⟨final, hfinal, hend⟩ := hnext (front ++ bytes) after middle (by
    rw [hmiddle, length_append])
  have hfirstData : front ++ bytes ++ (rest ++ after) = front ++ (bytes ++ rest) ++ after := by
    simp only [append_assoc]
  have hnextData : front ++ bytes ++ rest ++ after = front ++ (bytes ++ rest) ++ after := by
    simp only [append_assoc]
  rw [hfirstData] at hread
  rw [hnextData] at hfinal
  refine ⟨final, ?_, ?_⟩
  · dsimp only
    rw [bind_apply_ok hread]
    exact hfinal
  · rw [hend, length_append, length_append, Nat.add_assoc]

variable {count : ℕ}

theorem checkLeft_ok {data : Bytes} {cursor : Cursor} (message : String)
    (henough : cursor.offset + count ≤ data.length) :
    checkLeft count message data cursor = .ok ⟨⟩ cursor := by
  rw [checkLeft, get_bind, if_neg (Nat.not_lt.mpr henough)]
  rfl

theorem Parses.checked {message : String} (hcount : count ≤ bytes.length)
    (hfst : Parses first bytes value) :
    Parses (fun data => checkLeft count message data >>= fun _ => first data) bytes value := by
  intro front after cursor hoffset
  obtain ⟨final, hread, hend⟩ := hfst front after cursor hoffset
  refine ⟨final, ?_, hend⟩
  have hcheck : checkLeft count message (front ++ bytes ++ after) cursor = .ok ⟨⟩ cursor := by
    refine checkLeft_ok message ?_
    rw [length_append, length_append]
    omega
  dsimp only
  rw [bind_apply_ok hcheck]
  exact hread

theorem Parses.looked {look : UInt8 → Bytes → Reader α}
    (hlook : Parses (look byte) (byte :: bytes) value) :
    Parses (fun data => get >>= fun cursor => look (byteAt data cursor.offset) data)
      (byte :: bytes) value := by
  intro front after cursor hoffset
  obtain ⟨final, hread, hend⟩ := hlook front after cursor hoffset
  refine ⟨final, ?_, hend⟩
  have hbyte : byteAt (front ++ byte :: bytes ++ after) cursor.offset = byte := by
    have hfound := byteAt_append front (byte :: bytes ++ after) 0
    rwa [← append_assoc, Nat.add_zero, ← hoffset] at hfound
  dsimp only
  rw [get_bind, hbyte]
  exact hread

theorem parses_slice (bytes : Bytes) : Parses (readSlice bytes.length) bytes bytes := by
  intro front after cursor hoffset
  refine ⟨cursor.read bytes.length, ?_, ?_⟩
  · rw [readSlice, get_bind, modify_bind, hoffset, append_assoc, drop_left, List.take_left]
    rfl
  · rw [← hoffset]
    rfl

theorem parses_sliceOf (hlen : bytes.length = count) : Parses (readSlice count) bytes bytes := by
  obtain rfl := hlen
  exact parses_slice bytes

theorem parses_varint (hcount : count ≤ Proto.uint32Max) :
    Parses readVarint (Proto.varint count) count := by
  intro front after cursor hoffset
  have hdrop : (front ++ Proto.varint count ++ after).drop cursor.offset =
      Proto.varint count ++ after := by
    rw [hoffset, append_assoc, drop_left]
  refine ⟨cursor.read (Proto.varint count).length, ?_, ?_⟩
  · rw [readVarint, hdrop, Proto.decodeVarint_varint hcount]
    dsimp only
    rw [length_append, Nat.add_sub_cancel]
  · rw [← hoffset]
    rfl

theorem parses_map (hfst : Parses first bytes value) (f : α → β) :
    Parses (fun data => first data >>= fun value => pure (f value)) bytes (f value) := by
  intro front rest cursor hoffset
  obtain ⟨final, hread, hend⟩ := hfst front rest cursor hoffset
  refine ⟨final, ?_, hend⟩
  dsimp only
  rw [bind_apply_ok hread]
  rfl

end Parses

/-! ## Devices -/

structure Device.Fits (device : Device) : Prop where
  deviceId : 0 ≤ device.deviceId ∧ device.deviceId ≤ 255
  registrationId : 0 ≤ device.registrationId ∧ device.registrationId ≤ REG_ID_MASK

/-- The devices fit, and the first byte is not the mark of an excluded recipient. -/
def DevicesFit (devices : List Device) : Prop :=
  (∀ device ∈ devices, device.Fits) ∧ ∀ device, devices.head? = some device → device.deviceId ≠ 0

theorem sixteenBits {value : ℕ} (hval : value < 2 ^ 16) :
    (UInt8.ofNat (value >>> 8 &&& 0xff)).toNat <<< 8 ||| (UInt8.ofNat (value &&& 0xff)).toNat =
      value := by
  have hhigh : (UInt8.ofNat (value >>> 8 &&& 0xff)).toNat = value / 2 ^ 8 := by
    rw [UInt8.toNat_ofNat', Nat.shiftRight_eq_div_pow, Nat.and_two_pow_sub_one_eq_mod _ 8]
    omega
  have hlow : (UInt8.ofNat (value &&& 0xff)).toNat = value % 2 ^ 8 := by
    rw [UInt8.toNat_ofNat', Nat.and_two_pow_sub_one_eq_mod _ 8]
    omega
  have hbound : value % 2 ^ 8 < 2 ^ 8 := Nat.mod_lt _ (by decide)
  rw [hhigh, hlow, ← Nat.shiftLeft_add_eq_or_of_lt hbound, Nat.shiftLeft_eq]
  omega

def regIdWithFlag (isLast : Bool) (registrationId : ℕ) : ℕ :=
  registrationId ||| if isLast then 0x0000 else HAS_MORE_DEVICES_FLAG

section

variable (hid : registrationId ≤ REG_ID_MASK)

include hid

theorem regIdWithFlag_eq :
    regIdWithFlag isLast registrationId = registrationId + if isLast then 0 else 2 ^ 15 := by
  have hbound : registrationId < 2 ^ 15 := Nat.lt_of_le_of_lt hid (by decide)
  rw [regIdWithFlag]
  cases isLast with
  | true => simp
  | false =>
    change registrationId ||| 2 ^ 15 = registrationId + 2 ^ 15
    rw [Nat.or_comm, Nat.add_comm]
    exact (Nat.two_pow_add_eq_or_of_lt hbound 1).symm

theorem regIdWithFlag_mask :
    regIdWithFlag isLast registrationId &&& REG_ID_MASK = registrationId := by
  rw [regIdWithFlag_eq isLast hid]
  change _ &&& 2 ^ 14 - 1 = _
  rw [Nat.and_two_pow_sub_one_eq_mod]
  rw [REG_ID_MASK] at hid
  split <;> omega

theorem regIdWithFlag_flag :
    regIdWithFlag isLast registrationId &&& HAS_MORE_DEVICES_FLAG ≠ 0 ↔ isLast = false := by
  rw [regIdWithFlag_eq isLast hid]
  change _ &&& 2 ^ 15 ≠ 0 ↔ _
  rw [REG_ID_MASK] at hid
  rw [Nat.and_two_pow, Nat.testBit_eq_decide_div_mod_eq]
  cases isLast with
  | true =>
    have hzero : registrationId / 2 ^ 15 % 2 = 0 := by omega
    simp [hzero, -Nat.reducePow]
  | false =>
    have hone : (registrationId + 2 ^ 15) / 2 ^ 15 % 2 = 1 := by omega
    rw [if_neg (by decide), hone]
    simp

end

theorem deviceBytes_eq {device : Device} (hfits : device.Fits) :
    deviceBytes isLast device = [UInt8.ofNat device.deviceId.toNat,
      UInt8.ofNat (regIdWithFlag isLast device.registrationId.toNat >>> 8 &&& 0xff),
      UInt8.ofNat (regIdWithFlag isLast device.registrationId.toNat &&& 0xff)] := by
  have hid : device.deviceId % 256 = device.deviceId := by
    have hbounds := hfits.deviceId
    omega
  have hreg : device.registrationId % (REG_ID_MASK + 1) = device.registrationId := by
    have hbounds := hfits.registrationId
    rw [REG_ID_MASK] at hbounds ⊢
    omega
  rw [deviceBytes, hid, hreg]
  rfl

theorem readDevices_entry {front rest : Bytes} {isLast : Bool} {device : Device}
    (hfits : device.Fits) (hoffset : cursor.offset = front.length) :
    readDevices (front ++ (deviceBytes isLast device ++ rest)) cursor =
      if isLast = false then
        consDevice device
          (readDevices (front ++ (deviceBytes isLast device ++ rest)) ((cursor.read 1).read 2))
      else .ok [device] ((cursor.read 1).read 2) := by
  have hreg : device.registrationId.toNat ≤ REG_ID_MASK := by
    have hbounds := hfits.registrationId
    omega
  have hbyte (offset : ℕ) : byteAt (front ++ (deviceBytes isLast device ++ rest))
      (cursor.offset + offset) = (deviceBytes isLast device ++ rest).getD offset 0 := by
    rw [hoffset, byteAt_append]
  have hsmall : regIdWithFlag isLast device.registrationId.toNat < 2 ^ 16 := by
    rw [regIdWithFlag_eq isLast hreg]
    rw [REG_ID_MASK] at hreg
    split <;> omega
  have hsixteen := sixteenBits hsmall
  have hdev : (⟨((UInt8.ofNat device.deviceId.toNat).toNat : ℤ),
      (device.registrationId.toNat : ℤ)⟩ : Device) = device := by
    have hid := hfits.deviceId
    have hregistrationId := hfits.registrationId
    cases device with
    | mk deviceId registrationId =>
      rw [UInt8.toNat_ofNat', Device.mk.injEq]
      dsimp only at hid hregistrationId ⊢
      omega
  have hbytes := deviceBytes_eq isLast hfits
  have hzero := hbyte 0
  have hone := hbyte 1
  have htwo := hbyte 2
  rw [Nat.add_zero] at hzero
  rw [hbytes] at hzero hone htwo
  rw [readDevices, if_neg]
  · rw [hbytes]
    dsimp only
    rw [hzero, hone, htwo]
    simp only [cons_append, getD_cons_zero, getD_cons_succ, nil_append]
    rw [hsixteen, regIdWithFlag_mask isLast hreg, hdev]
    simp only [regIdWithFlag_flag isLast hreg]
  · have hthree : (deviceBytes isLast device).length = 3 := rfl
    rw [hoffset, length_append, length_append, hthree]
    omega

theorem parses_devices {devices : List Device} (hfits : ∀ device ∈ devices, device.Fits)
    (hne : devices ≠ []) : Parses readDevices (deviceListBytes devices) devices := by
  induction devices with
  | nil => exact absurd rfl hne
  | cons device devices ih =>
    have hdev := hfits device mem_cons_self
    intro front rest cursor hoffset
    cases devices with
    | nil =>
      refine ⟨(cursor.read 1).read 2, ?_, ?_⟩
      · rw [deviceListBytes, append_assoc, readDevices_entry hdev hoffset]
        rfl
      · rw [← hoffset]
        rfl
    | cons following devices =>
      have hmoved : ((cursor.read 1).read 2).offset =
          (front ++ deviceBytes false device).length := by
        rw [length_append, ← hoffset]
        rfl
      obtain ⟨last, hread, hend⟩ := ih (fun other hmem =>
        hfits other (mem_cons_of_mem _ hmem)) (cons_ne_nil _ _)
        (front ++ deviceBytes false device) rest _ hmoved
      rw [append_assoc, append_assoc] at hread
      refine ⟨last, ?_, ?_⟩
      · rw [deviceListBytes, append_assoc, append_assoc,
          readDevices_entry hdev hoffset, if_pos rfl, hread, consDevice]
      · rw [hend, deviceListBytes, length_append, length_append, Nat.add_assoc]

theorem readDevices_fit (data : Bytes) (cursor : Cursor) : ∀ devices last,
    readDevices data cursor = .ok devices last →
      (∀ device ∈ devices, device.Fits) ∧ ∀ device, devices.head? = some device →
        device.deviceId = (byteAt data cursor.offset).toNat := by
  have hfits (byte : UInt8) (value : ℕ) :
      (⟨byte.toNat, (value &&& REG_ID_MASK : ℕ)⟩ : Device).Fits := by
    have hbyte := byte.toNat_lt
    have hmask : value &&& REG_ID_MASK ≤ REG_ID_MASK := Nat.and_le_right
    constructor
    · dsimp only
      omega
    · dsimp only
      omega
  fun_induction readDevices data cursor with
  | case1 cursor hshort =>
    intro devices last hread
    cases hread
  | case2 cursor hlong deviceId regIdWithFlag device hmore ih =>
    intro devices last hread
    obtain ⟨others, hrest, rfl⟩ := consDevice_eq_ok_iff.mp hread
    refine ⟨?_, ?_⟩
    · intro other hmem
      obtain rfl | hmem := mem_cons.mp hmem
      · exact hfits _ _
      · exact (ih others last hrest).1 other hmem
    · intro first hfst
      cases hfst
      rfl
  | case3 cursor hlong deviceId regIdWithFlag device hlast =>
    intro devices last hread
    cases hread
    refine ⟨?_, ?_⟩
    · intro other hmem
      obtain rfl := mem_singleton.mp hmem
      exact hfits _ _
    · intro first hfst
      cases hfst
      rfl

/-- The UUID text of the account that a service ID names. -/
def uuidForm (serviceId : ServiceId) : ServiceId :=
  match serviceIdToBytes serviceId with
  | .ok bytes => uuidText (Rs.hexText bytes)
  | .error _ => serviceId

theorem serviceIdToBytes_length {bytes : Bytes}
    (hbytes : serviceIdToBytes serviceId = .ok bytes) : bytes.length = UUID_BYTES := by
  rw [serviceIdToBytes] at hbytes
  split at hbytes
  · next hhex =>
    rw [← Except.ok.inj hbytes, Rs.bytesOfHex, length_map, length_range, hhex.1]
    rfl
  · split at hbytes
    · obtain ⟨decoded, -, hcheck⟩ := bind_eq_ok_iff.mp hbytes
      split at hcheck
      · next hlen => rwa [← Except.ok.inj hcheck]
      · cases hcheck
    · cases hbytes

set_option maxRecDepth 4000 in
theorem isHexDigit_hexText {bytes : Bytes} : ∀ char ∈ Rs.hexText bytes, isHexDigit char = true := by
  have hbyte : ∀ value < 256, ((Nat.toDigits 16 value).leftpad 2 '0').all isHexDigit = true := by
    decide
  intro char hmem
  obtain ⟨byte, -, hchar⟩ := mem_flatMap.mp hmem
  exact all_eq_true.mp (hbyte byte.toNat byte.toNat_lt) char hchar

theorem filter_uuidText {hex : List Char} (hlen : hex.length = 32)
    (hdigits : ∀ char ∈ hex, isHexDigit char = true) : (uuidText hex).filter (· ≠ '-') = hex := by
  have hplain {part : List Char} (hpart : ∀ char ∈ part, char ∈ hex) :
      part.filter (· ≠ '-') = part := by
    rw [filter_eq_self]
    intro char hmem
    have hdigit := hdigits char (hpart char hmem)
    rw [decide_eq_true_iff]
    rintro rfl
    cases hdigit
  have hpart (start count : ℕ) : ((hex.drop start).take count).filter (· ≠ '-') =
      (hex.drop start).take count :=
    hplain fun char hmem => mem_of_mem_drop (mem_of_mem_take hmem)
  have hjoin (start count : ℕ) :
      (hex.drop start).take count ++ hex.drop (start + count) = hex.drop start := by
    rw [← drop_drop, List.take_append_drop]
  have hdash (rest : List Char) : ('-' :: rest).filter (· ≠ '-') = rest.filter (· ≠ '-') := by
    rfl
  have hlast : (hex.drop 20).take 12 = hex.drop 20 := by
    rw [List.take_of_length_le]
    rw [length_drop, hlen]
  rw [uuidText]
  simp only [filter_append, hdash]
  rw [hpart, hpart, hpart, hpart, hlast, hjoin 16 4, hjoin 12 4, hjoin 8 4,
    hplain fun char hmem => mem_of_mem_take hmem, List.take_append_drop]

theorem serviceIdToBytes_uuidForm {bytes : Bytes}
    (hbytes : serviceIdToBytes serviceId = .ok bytes) :
    serviceIdToBytes (uuidForm serviceId) = .ok bytes := by
  have hlen : (Rs.hexText bytes).length = 32 := by
    rw [Rs.hexText_length, serviceIdToBytes_length hbytes]
    rfl
  have hhex := filter_uuidText hlen isHexDigit_hexText
  rw [uuidForm, hbytes]
  dsimp only
  rw [serviceIdToBytes, hhex, if_pos ⟨hlen, all_eq_true.mpr isHexDigit_hexText⟩,
    Rs.bytesOfHex_hexText]
  rfl

theorem bytesToServiceId_eq {bytes : Bytes} (hbytes : serviceIdToBytes serviceId = .ok bytes) :
    bytesToServiceId bytes = .ok (uuidForm serviceId) := by
  rw [bytesToServiceId, if_neg (not_not.mpr (serviceIdToBytes_length hbytes)), uuidForm, hbytes]
  rfl

/-! ## Recipients -/

def SentMessageRecipient.inUuidForm (recipient : SentMessageRecipient) : SentMessageRecipient :=
  { recipient with serviceId := uuidForm recipient.serviceId }

def ExcludedRecipient.inUuidForm (excluded : ExcludedRecipient) : ExcludedRecipient :=
  ⟨uuidForm excluded.serviceId⟩

theorem head_deviceListBytes {device : Device} (devices : List Device) (hfits : device.Fits) :
    ∃ rest, deviceListBytes (device :: devices) = UInt8.ofNat device.deviceId.toNat :: rest := by
  cases devices with
  | nil => exact ⟨_, deviceBytes_eq true hfits⟩
  | cons following devices =>
    rw [deviceListBytes, deviceBytes_eq false hfits]
    exact ⟨_, rfl⟩

theorem recipientBytes_eq_ok {recipient : SentMessageRecipient} {bytes : Bytes}
    (hbytes : recipientBytes recipient = .ok bytes) :
    recipient.devices ≠ [] ∧ recipient.encryptedMessageKey.length = ENCRYPTED_KEY_SIZE ∧
      recipient.authenticationTag.length = AUTH_TAG_SIZE ∧
      ∃ uuid, serviceIdToBytes recipient.serviceId = .ok uuid ∧
        bytes = ACI_MARKER :: uuid ++ (deviceListBytes recipient.devices ++
          (recipient.encryptedMessageKey ++ recipient.authenticationTag)) := by
  rw [recipientBytes] at hbytes
  split at hbytes
  · cases hbytes
  · next hdevs =>
    split at hbytes
    · cases hbytes
    · next hkey =>
      split at hbytes
      · cases hbytes
      · next htag =>
        obtain ⟨uuid, huuid, hread⟩ := bind_eq_ok_iff.mp hbytes
        exact ⟨hdevs, not_not.mp hkey, not_not.mp htag, uuid, huuid, (Except.ok.inj hread).symm⟩

variable {excluded : ExcludedRecipient}

theorem excludedBytes_eq_ok {bytes : Bytes} (hbytes : excludedBytes excluded = .ok bytes) :
    ∃ uuid, serviceIdToBytes excluded.serviceId = .ok uuid ∧
      bytes = ACI_MARKER :: uuid ++ [EXCLUDED_RECIPIENT_DEVICE_ID] := by
  obtain ⟨uuid, huuid, hread⟩ := bind_eq_ok_iff.mp hbytes
  exact ⟨uuid, huuid, (Except.ok.inj hread).symm⟩

theorem parses_serviceId {α : Type} {next : ServiceId → Bytes → Reader α} {rest : Bytes}
    {value : α} (huuid : serviceIdToBytes serviceId = .ok uuid)
    (hnext : Parses (next (uuidForm serviceId)) rest value) :
    Parses (fun data => checkLeft SERVICE_ID_WIRE_SIZE "Truncated ServiceId" data >>= fun _ =>
      readSlice 1 data >>= fun _ => readSlice UUID_BYTES data >>= fun bytes =>
        fromResult (bytesToServiceId bytes) >>= fun serviceId => next serviceId data)
      (ACI_MARKER :: uuid ++ rest) value := by
  have hlen := serviceIdToBytes_length huuid
  have hid : Parses (fun data => fromResult (bytesToServiceId uuid) >>= fun serviceId =>
      next serviceId data) rest value := by
    rw [bytesToServiceId_eq huuid]
    exact hnext
  refine Parses.checked ?_ ?_
  · rw [cons_append, length_cons, length_append, hlen, SERVICE_ID_WIRE_SIZE, UUID_BYTES]
    omega
  · change Parses _ ([ACI_MARKER] ++ (uuid ++ rest)) value
    refine Parses.bind (parses_sliceOf rfl) ?_
    exact Parses.bind (parses_sliceOf hlen) hid

def readEntry (parsed : ParsedRecipients) (serviceId : ServiceId) (byte : UInt8) (data : Bytes) :
    Reader ParsedRecipients :=
  if byte = EXCLUDED_RECIPIENT_DEVICE_ID then do
    let _ ← readSlice 1 data
    pure { parsed with excludedRecipients := parsed.excludedRecipients ++ [⟨serviceId⟩] }
  else do
    let devices ← readDevices data
    checkLeft (ENCRYPTED_KEY_SIZE + AUTH_TAG_SIZE) "Truncated key material" data
    let encryptedMessageKey ← readSlice ENCRYPTED_KEY_SIZE data
    let authenticationTag ← readSlice AUTH_TAG_SIZE data
    let recipient : SentMessageRecipient :=
      { serviceId, devices, encryptedMessageKey, authenticationTag }
    pure { parsed with recipients := parsed.recipients ++ [recipient] }

variable {result : ParsedRecipients}

theorem parses_entry {rest : Bytes} (huuid : serviceIdToBytes serviceId = .ok uuid)
    (hentry : Parses (readEntry parsed (uuidForm serviceId) byte) (byte :: rest) result) :
    Parses (fun data => readRecipient data parsed) (ACI_MARKER :: uuid ++ byte :: rest) result := by
  refine parses_serviceId huuid ?_
  refine Parses.checked ?_ ?_
  · rw [length_cons]
    omega
  · exact Parses.looked hentry

theorem parses_included {recipient : SentMessageRecipient} {bytes : Bytes}
    (hbytes : recipientBytes recipient = .ok bytes) (hfit : DevicesFit recipient.devices)
    (parsed : ParsedRecipients) :
    Parses (fun data => readRecipient data parsed) bytes
      { parsed with recipients := parsed.recipients ++ [recipient.inUuidForm] } := by
  obtain ⟨hdevs, hkey, htag, uuid, huuid, rfl⟩ := recipientBytes_eq_ok hbytes
  obtain ⟨device, devices, hcons⟩ := exists_cons_of_ne_nil hdevs
  have hdev : device.Fits := hfit.1 device (by rw [hcons]; exact mem_cons_self)
  obtain ⟨rest, hhead⟩ := head_deviceListBytes devices hdev
  have hbyte : UInt8.ofNat device.deviceId.toNat ≠ EXCLUDED_RECIPIENT_DEVICE_ID := by
    have hbounds := hdev.deviceId
    have hnonzero := hfit.2 device (by rw [hcons]; rfl)
    intro hsame
    have hnat := congrArg UInt8.toNat hsame
    rw [UInt8.toNat_ofNat'] at hnat
    change device.deviceId.toNat % 256 = 0 at hnat
    omega
  rw [← hcons] at hhead
  have hkeyParse := parses_sliceOf hkey
  have htagParse := parses_sliceOf htag
  have hread : Parses (readEntry parsed (uuidForm recipient.serviceId)
      (UInt8.ofNat device.deviceId.toNat)) (deviceListBytes recipient.devices ++
        (recipient.encryptedMessageKey ++ recipient.authenticationTag))
      { parsed with recipients := parsed.recipients ++ [recipient.inUuidForm] } := by
    unfold readEntry
    simp only [if_neg hbyte]
    refine (parses_devices hfit.1 hdevs).bind ?_
    refine Parses.checked ?_ ?_
    · rw [length_append, hkey, htag]
    · refine hkeyParse.bind ?_
      exact parses_map htagParse _
  rw [hhead] at hread ⊢
  exact parses_entry huuid hread

theorem parses_excluded {bytes : Bytes}
    (hbytes : excludedBytes excluded = .ok bytes) (parsed : ParsedRecipients) :
    Parses (fun data => readRecipient data parsed) bytes
      { parsed with
        excludedRecipients := parsed.excludedRecipients ++ [excluded.inUuidForm] } := by
  obtain ⟨uuid, huuid, rfl⟩ := excludedBytes_eq_ok hbytes
  refine parses_entry huuid ?_
  have hmark : Parses (readSlice 1) [EXCLUDED_RECIPIENT_DEVICE_ID] _ := parses_sliceOf rfl
  unfold readEntry
  simp only [if_pos]
  exact parses_map hmark _

theorem parses_recipients {next : ParsedRecipients} {count : ℕ} {bytes rest : Bytes}
    (hentry : Parses (fun data => readRecipient data parsed) bytes next)
    (hrest : Parses (fun data => readRecipients data count next) rest result) :
    Parses (fun data => readRecipients data (count + 1) parsed) (bytes ++ rest) result :=
  Parses.bind hentry hrest

theorem parses_excludedList {excluded : List ExcludedRecipient}
    (hentries : excluded.mapM excludedBytes = .ok entries) (parsed : ParsedRecipients) :
    Parses (fun data => readRecipients data excluded.length parsed) entries.flatten
      { parsed with
        excludedRecipients := parsed.excludedRecipients ++ excluded.map (·.inUuidForm) } := by
  induction excluded generalizing entries parsed with
  | nil =>
    obtain rfl : [] = entries := Except.ok.inj hentries
    rw [map_nil, append_nil]
    exact .pure parsed
  | cons first excluded ih =>
    obtain ⟨bytes, rest, hbytes, hrest, rfl⟩ := mapM_cons_eq_ok hentries
    have hall := parses_recipients (parses_excluded hbytes parsed) (ih hrest _)
    rw [append_assoc] at hall
    exact hall

theorem parses_includedList {recipients : List SentMessageRecipient}
     {count : ℕ} {rest : Bytes} (parsed : ParsedRecipients)
    (hentries : recipients.mapM recipientBytes = .ok entries)
    (hfit : ∀ recipient ∈ recipients, DevicesFit recipient.devices)
    (hrest : Parses (fun data => readRecipients data count
      { parsed with recipients := parsed.recipients ++ recipients.map (·.inUuidForm) }) rest
      result) :
    Parses (fun data => readRecipients data (recipients.length + count) parsed)
      (entries.flatten ++ rest) result := by
  induction recipients generalizing entries parsed with
  | nil =>
    obtain rfl : [] = entries := Except.ok.inj hentries
    rw [map_nil, append_nil] at hrest
    rw [length_nil, Nat.zero_add]
    exact hrest
  | cons first recipients ih =>
    obtain ⟨bytes, others, hbytes, hothers, rfl⟩ := mapM_cons_eq_ok hentries
    have hfst := parses_included hbytes (hfit first mem_cons_self) parsed
    have hlen : (first :: recipients).length + count = recipients.length + count + 1 := by
      rw [length_cons]
      omega
    rw [map_cons, append_cons] at hrest
    rw [hlen, flatten_cons, append_assoc]
    exact parses_recipients hfst
      (ih _ hothers (fun recipient hmem => hfit recipient (mem_cons_of_mem _ hmem)) hrest)

/-- What the parser returns of a message, with service IDs in UUID form. -/
def sentMessage (recipients : List SentMessageRecipient)
    (excludedRecipients : List ExcludedRecipient) (ephemeralPublic messageCiphertext : Bytes) :
    DeserializedSentMessage where
  version := SEALED_SENDER_V2_SERVICE_ID_VERSION
  recipients := recipients.map (·.inUuidForm)
  excludedRecipients := excludedRecipients.map (·.inUuidForm)
  ephemeralPublic := ephemeralPublic
  messageCiphertext := messageCiphertext

variable {recipients : List SentMessageRecipient} {excluded : List ExcludedRecipient}
variable {ephemeralPublic messageCiphertext bytes : Bytes}

section

variable (hbytes : serializeSentMessage recipients excluded ephemeralPublic messageCiphertext =
  .ok bytes)

include hbytes

theorem serializeSentMessage_eq_ok :
    ephemeralPublic.length = EPHEMERAL_PUBLIC_SIZE ∧
      recipients.length + excluded.length ≤ Proto.uint32Max ∧
      ∃ includedEntries excludedEntries, recipients.mapM recipientBytes = .ok includedEntries ∧
        excluded.mapM excludedBytes = .ok excludedEntries ∧
        bytes = SEALED_SENDER_V2_SERVICE_ID_VERSION ::
          Proto.varint (recipients.length + excluded.length) ++ (includedEntries.flatten ++
            (excludedEntries.flatten ++ (ephemeralPublic ++ messageCiphertext))) := by
  rw [serializeSentMessage] at hbytes
  split at hbytes
  · cases hbytes
  · next hephemeral =>
    obtain ⟨count, hcount, hrest⟩ := bind_eq_ok_iff.mp hbytes
    obtain ⟨hbound, rfl⟩ := Proto.encodeVarint_eq_ok_iff.mp hcount
    obtain ⟨includedEntries, hincluded, hrest⟩ := bind_eq_ok_iff.mp hrest
    obtain ⟨excludedEntries, hexcluded, hrest⟩ := bind_eq_ok_iff.mp hrest
    exact ⟨not_not.mp hephemeral, hbound, includedEntries, excludedEntries, hincluded, hexcluded,
      (Except.ok.inj hrest).symm⟩

theorem deserialize_serialize (hfit : ∀ recipient ∈ recipients, DevicesFit recipient.devices) :
    ∃ final, deserializeSentMessage bytes Cursor.start =
      .ok (sentMessage recipients excluded ephemeralPublic messageCiphertext) final := by
  obtain ⟨hephemeral, hbound, includedEntries, excludedEntries, hincluded, hexcluded, hdata⟩ :=
    serializeSentMessage_eq_ok hbytes
  have hentries := parses_includedList {} hincluded hfit (parses_excludedList hexcluded _)
  generalize hentriesBytes : includedEntries.flatten ++ excludedEntries.flatten = entries
    at hentries
  have hjoined : bytes = SEALED_SENDER_V2_SERVICE_ID_VERSION ::
      (Proto.varint (recipients.length + excluded.length) ++
        (entries ++ (ephemeralPublic ++ messageCiphertext))) := by
    rw [hdata, ← hentriesBytes, append_assoc, cons_append]
  generalize hrecips : Proto.varint (recipients.length + excluded.length) = count at hjoined
  have hmark : Parses (readSlice 1) [SEALED_SENDER_V2_SERVICE_ID_VERSION] _ := parses_sliceOf rfl
  have hcounted := parses_varint hbound
  rw [hrecips] at hcounted
  obtain ⟨afterVersion, hver, hversionEnd⟩ := hmark []
    (count ++ (entries ++ (ephemeralPublic ++ messageCiphertext))) Cursor.start rfl
  obtain ⟨afterCount, hcount, hcountEnd⟩ := hcounted [SEALED_SENDER_V2_SERVICE_ID_VERSION]
    (entries ++ (ephemeralPublic ++ messageCiphertext)) afterVersion hversionEnd
  obtain ⟨afterEntries, hread, hreadEnd⟩ := hentries
    ([SEALED_SENDER_V2_SERVICE_ID_VERSION] ++ count) (ephemeralPublic ++ messageCiphertext)
    afterCount (hcountEnd.trans length_append.symm)
  obtain ⟨afterKey, hkey, hkeyEnd⟩ := parses_sliceOf hephemeral
    ([SEALED_SENDER_V2_SERVICE_ID_VERSION] ++ count ++ entries) messageCiphertext afterEntries
    (hreadEnd.trans length_append.symm)
  have hcountData : [SEALED_SENDER_V2_SERVICE_ID_VERSION] ++ count ++
      (entries ++ (ephemeralPublic ++ messageCiphertext)) = bytes := hjoined.symm
  have hreadData : [SEALED_SENDER_V2_SERVICE_ID_VERSION] ++ count ++ entries ++
      (ephemeralPublic ++ messageCiphertext) = bytes := by
    rw [hjoined, append_assoc]
    rfl
  have hkeyData : [SEALED_SENDER_V2_SERVICE_ID_VERSION] ++ count ++ entries ++ ephemeralPublic ++
      messageCiphertext = bytes := by
    rw [← hreadData, append_assoc _ ephemeralPublic]
  have hversionData : [] ++ [SEALED_SENDER_V2_SERVICE_ID_VERSION] ++
      (count ++ (entries ++ (ephemeralPublic ++ messageCiphertext))) = bytes := hjoined.symm
  have hrest : bytes.drop afterKey.offset = messageCiphertext := by
    rw [hkeyEnd, ← hkeyData, ← length_append, drop_left]
  rw [hversionData] at hver
  rw [hcountData] at hcount
  rw [hreadData] at hread
  rw [hkeyData] at hkey
  have hlast : readSlice (bytes.length - afterKey.offset) bytes afterKey =
      .ok messageCiphertext (afterKey.read (bytes.length - afterKey.offset)) := by
    rw [readSlice, get_bind, modify_bind, hrest, ← length_drop, hrest, List.take_length]
    rfl
  have hfst : byteAt bytes Cursor.start.offset = SEALED_SENDER_V2_SERVICE_ID_VERSION := by
    rw [hjoined]
    rfl
  refine ⟨afterKey.read (bytes.length - afterKey.offset), ?_⟩
  rw [deserializeSentMessage, bind_apply_ok (checkLeft_ok _ ?_), get_bind]
  · dsimp only
    rw [hfst, bind_apply_ok hver, if_neg (by decide), bind_apply_ok hcount,
      bind_apply_ok hread, bind_apply_ok (checkLeft_ok _ ?_), bind_apply_ok hkey, get_bind,
      bind_apply_ok hlast]
    · rfl
    · rw [hreadEnd, ← hkeyData]
      simp only [length_append]
      omega
  · rw [hjoined, length_cons]
    change 0 + 1 ≤ _
    omega

end

theorem triple_any {α : Type} (computation : Reader α) :
    Triple (fun _ => True) computation (fun _ _ => True) (fun _ => True) :=
  fun _ _ => ⟨fun _ _ _ => trivial, fun _ _ _ => trivial⟩

theorem readDevices_devicesFit {data : Bytes} {found : Cursor}
    (hbyte : byteAt data found.offset ≠ EXCLUDED_RECIPIENT_DEVICE_ID) :
    Triple (fun state => found = state ∧ True) (readDevices data)
      (fun devices _ => DevicesFit devices) (fun _ => True) := by
  rintro state ⟨rfl, -⟩
  refine ⟨?_, fun _ _ _ => trivial⟩
  intro devices next hread
  obtain ⟨hfits, hhead⟩ := readDevices_fit data found devices next hread
  refine ⟨hfits, ?_⟩
  intro device hdev hzero
  rw [hhead device hdev] at hzero
  refine hbyte (UInt8.toNat_inj.mp ?_)
  change _ = 0
  omega

theorem readRecipient_devicesFit {data : Bytes}
    (hparse : ∀ recipient ∈ parsed.recipients, DevicesFit recipient.devices) :
    Triple (fun _ => True) (readRecipient data parsed)
      (fun next _ => ∀ recipient ∈ next.recipients, DevicesFit recipient.devices)
      (fun _ => True) := by
  refine (triple_any _).bind fun _ => (triple_any _).bind fun _ => ?_
  refine (triple_any _).bind fun bytes => ?_
  refine (triple_any _).bind fun serviceId => (triple_any _).bind fun _ => ?_
  refine Triple.get_eq.bind fun found => .ite (fun _ => ?_) fun hbyte => ?_
  · refine ((triple_any _).weaken (fun _ _ => trivial) fun _ _ h => h).bind fun _ => ?_
    exact .pure _ fun _ _ => hparse
  · refine (readDevices_devicesFit hbyte).bind fun devices => ?_
    intro state hdevs
    refine ((triple_any _).bind fun _ => (triple_any _).bind fun key =>
      (triple_any _).bind fun tag => ?_) state trivial
    refine .pure _ fun _ _ => ?_
    intro recipient hmem
    obtain hmem | hmem := mem_append.mp hmem
    · exact hparse recipient hmem
    · obtain rfl := mem_singleton.mp hmem
      exact hdevs

theorem readRecipients_devicesFit {data : Bytes} (count : ℕ)
    (hparse : ∀ recipient ∈ parsed.recipients, DevicesFit recipient.devices) :
    Triple (fun _ => True) (readRecipients data count parsed)
      (fun next _ => ∀ recipient ∈ next.recipients, DevicesFit recipient.devices)
      (fun _ => True) := by
  induction count generalizing parsed with
  | zero => exact .pure _ fun _ _ => hparse
  | succ count ih =>
    refine (readRecipient_devicesFit hparse).bind fun next => ?_
    intro state hnext
    exact ih hnext state trivial

theorem deserializeSentMessage_devicesFit {data : Bytes} :
    Triple (fun _ => True) (deserializeSentMessage data)
      (fun message _ => ∀ recipient ∈ message.recipients, DevicesFit recipient.devices)
      (fun _ => True) := by
  refine (triple_any _).bind fun _ => (triple_any _).bind fun found => ?_
  refine (triple_any _).bind fun _ => ?_
  refine .ite (fun _ => .throw _ fun _ _ => trivial) fun _ => ?_
  refine (triple_any _).bind fun count => ?_
  refine (readRecipients_devicesFit count ?_).bind fun parsed => ?_
  · rintro recipient ⟨⟩
  · intro state hparse
    refine ((triple_any _).bind fun _ => (triple_any _).bind fun key =>
      (triple_any _).bind fun left => (triple_any _).bind fun rest => ?_) state trivial
    exact .pure _ fun _ _ => hparse

/-- A message that was written reads back as it was if and only if the devices of its recipients
fit. -/
theorem sentMessage_roundTrip (recipients : List SentMessageRecipient)
    (excluded : List ExcludedRecipient) (ephemeralPublic messageCiphertext bytes : Bytes)
    (hbytes : serializeSentMessage recipients excluded ephemeralPublic messageCiphertext =
      .ok bytes) :
    ((∃ final, deserializeSentMessage bytes Cursor.start =
        .ok (sentMessage recipients excluded ephemeralPublic messageCiphertext) final) ↔
      ∀ recipient ∈ recipients, DevicesFit recipient.devices) ∧
    (∀ serviceId uuid, serviceIdToBytes serviceId = .ok uuid →
      serviceIdToBytes (uuidForm serviceId) = .ok uuid) ∧
    ∀ data, (finalState (deserializeSentMessage data Cursor.start)).Tracked data := by
  refine ⟨⟨?_, deserialize_serialize hbytes⟩, fun _ _ => serviceIdToBytes_uuidForm,
    deserializeSentMessage_tracked⟩
  rintro ⟨final, hread⟩ recipient hmem
  have hall := (deserializeSentMessage_devicesFit Cursor.start trivial).1 _ _ hread
  exact hall recipient.inUuidForm (mem_map_of_mem hmem)

def oneDevice (deviceId : ℤ) : SentMessageRecipient where
  serviceId := List.replicate 32 'a'
  devices := [⟨deviceId, 1⟩]
  encryptedMessageKey := List.replicate 32 0
  authenticationTag := List.replicate 16 0

/-- A message to the first device of one account. -/
theorem sentMessage_roundTrip_one : ∃ bytes final,
    serializeSentMessage [oneDevice 1] [] (List.replicate 32 0) [7] = .ok bytes ∧
      deserializeSentMessage bytes Cursor.start =
        .ok (sentMessage [oneDevice 1] [] (List.replicate 32 0) [7]) final := by
  have hfit : ∀ recipient ∈ [oneDevice 1], DevicesFit recipient.devices := by
    intro recipient hmem
    obtain rfl := mem_singleton.mp hmem
    refine ⟨?_, ?_⟩
    · intro device hdevice
      obtain rfl := mem_singleton.mp hdevice
      exact ⟨by decide, by decide⟩
    · rintro device ⟨⟩
      decide
  obtain ⟨final, hread⟩ :=
    (sentMessage_roundTrip [oneDevice 1] [] (List.replicate 32 0) [7] _ rfl).1.mpr hfit
  exact ⟨_, final, rfl, hread⟩

/-- The device 256 of an included recipient is written as the mark of an excluded one. -/
theorem sentMessage_misread : ∃ bytes,
    serializeSentMessage [oneDevice 256] [] (List.replicate 32 0) [7] = .ok bytes ∧
      (∃ message final, deserializeSentMessage bytes Cursor.start = .ok message final ∧
        message.recipients = [] ∧
        message.excludedRecipients = [⟨uuidForm (List.replicate 32 'a')⟩]) ∧
      ¬ ∃ final, deserializeSentMessage bytes Cursor.start =
        .ok (sentMessage [oneDevice 256] [] (List.replicate 32 0) [7]) final := by
  refine ⟨_, rfl, ⟨_, _, rfl, rfl, rfl⟩, ?_⟩
  rintro ⟨final, hread⟩
  have hall := (deserializeSentMessage_devicesFit Cursor.start trivial).1 _ _ hread
  have hdevice := (hall (oneDevice 256).inUuidForm mem_cons_self).1 _ mem_cons_self
  exact absurd hdevice.deviceId.2 (by decide)

end SignalProtocol.SealedSender
