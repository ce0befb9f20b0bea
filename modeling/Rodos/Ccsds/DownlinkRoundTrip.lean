import Rodos.Ccsds.CheckoutTF

/-! Telemetry: what the spacecraft has put into a frame is what the ground takes out of it; the idle
packet behind it, or the bytes that are left without one, end the frame. -/
namespace Rodos.Ccsds
open Library Support

/-- What a user gives to the envelope for a packet, and when it is committed. -/
structure DownlinkPacket where
  spHeader : DownlinkSPHeader
  userData : List UInt8
  timeNow : Int64

/-- A header for telemetry: its values fit their fields, and it is not that of an idle packet. -/
def DownlinkSPHeader.Sent (header : DownlinkSPHeader) : Prop :=
  header.typeId = 0 ∧ header.applicationId ≠ 0x7ff ∧ DownlinkSPHeader.format.Fits header

/-- The counters are longer than the field for them. -/
def DownlinkSPHeader.onTheWire (header : DownlinkSPHeader) : DownlinkSPHeader :=
  { header with sourceSeqCnt := header.sourceSeqCnt % 0x4000 }

namespace DownlinkEnvelop

section build

variable (timeFraction : Int64 → UInt16)

def addSP (state : DownlinkEnvelop × DownlinkCounters) (packet : DownlinkPacket) :
    DownlinkEnvelop × DownlinkCounters :=
  commitSP timeFraction (state.1.beginNewSP.2.fillSP packet.spHeader packet.userData) state.2
    packet.timeNow

/-- Every packet has user data, and not more than `beginNewSP` allows. -/
def Fits : DownlinkEnvelop × DownlinkCounters → List DownlinkPacket → Prop
  | _, [] => True
  | state, packet :: packets =>
    1 ≤ packet.userData.length ∧ packet.userData.length ≤ state.1.beginNewSP.1.toNat ∧
      Fits (addSP timeFraction state packet) packets

def build (envelop : DownlinkEnvelop) (counters : DownlinkCounters) (packets : List DownlinkPacket)
    (timeNow : Int64) : DownlinkEnvelop × DownlinkCounters :=
  let (envelop, counters) := packets.foldl (addSP timeFraction) (envelop.beginNewTF, counters)
  commitTF timeFraction envelop counters timeNow

/-- The header of a packet as it is committed: its length, its time and its number are filled in. -/
def spHeaderOf (counters : DownlinkCounters) (spHeader : DownlinkSPHeader) (userLen : Nat)
    (timeNow : Int64) : DownlinkSPHeader :=
  { spHeader with
    dataPackLen := .ofNat (userLen + 9)
    timeStampSeconds := (timeNow / SECONDS).toUInt64.toUInt32
    timeStampFraction := timeFraction (timeNow % SECONDS)
    sourceSeqCnt := (counters.apidSequenceCounter (spHeader.applicationId &&& 2047)).toUInt16 }

/-- The packets with the headers that they have in the frame. -/
def committed : DownlinkEnvelop × DownlinkCounters → List DownlinkPacket →
    List (DownlinkSPHeader × List UInt8)
  | _, [] => []
  | state, packet :: packets =>
    ((spHeaderOf timeFraction state.2 packet.spHeader packet.userData.length
        packet.timeNow).onTheWire, packet.userData) ::
      committed (addSP timeFraction state packet) packets

end build

variable {timeFraction : Int64 → UInt16} {envelop : DownlinkEnvelop} {counters : DownlinkCounters}
  {packets : List (DownlinkSPHeader × List UInt8)}

/-- Such a packet the ground takes for one, and finds where it ends. -/
def Accepted (packet : DownlinkSPHeader × List UInt8) : Prop :=
  downlinkPackets.refused packet.1 = false ∧
    packet.1.dataPackLen.toNat + 7 = 16 + packet.2.length

/-- The packets that are in a frame which is not complete yet, and the rest of it. -/
structure Holds (envelop : DownlinkEnvelop) (packets : List (DownlinkSPHeader × List UInt8)) :
    Prop where
  laid : Laid DownlinkSPHeader.format envelop.buf 6 packets envelop.indexOfCurrentSP.toNat
  index_le : envelop.indexOfCurrentSP.toNat + 6 ≤ 1000
  lenOfCurrentTF_eq : envelop.lenOfCurrentTF = DOWNLINK_TF_LEN
  accepted : ∀ packet ∈ packets, Accepted packet
  rest_eq : ∀ index, envelop.indexOfCurrentSP.toNat ≤ index → index < TF_MAX_LEN →
    envelop.buf index = 0xff

theorem holds_beginNewTF (envelop : DownlinkEnvelop) : Holds envelop.beginNewTF [] where
  laid := rfl
  index_le := by
    change 6 + 6 ≤ 1000
    decide
  lenOfCurrentTF_eq := rfl
  accepted _ hpacket := absurd hpacket List.not_mem_nil
  rest_eq _ _ hinside := if_pos hinside

section commitSP

variable {timeNow : Int64}

theorem cut_spHeaderOf {spHeader : DownlinkSPHeader}
    (hfits : DownlinkSPHeader.format.Fits spHeader) (userLen : Nat) :
    DownlinkSPHeader.format.cut (spHeaderOf timeFraction counters spHeader userLen timeNow) =
      (spHeaderOf timeFraction counters spHeader userLen timeNow).onTheWire := by
  have hlength := (UInt16.ofNat (userLen + 9)).toNat_lt
  have hseconds := (timeNow / SECONDS).toUInt64.toUInt32.toNat_lt
  have hfraction := (timeFraction (timeNow % SECONDS)).toNat_lt
  simp only [PackedRecord.Fits, DownlinkSPHeader.format, DownlinkSPHeader.fields,
    List.forall_mem_cons] at hfits
  apply PackedRecord.cut_eq
  simp only [DownlinkSPHeader.format, DownlinkSPHeader.fields, DownlinkSPHeader.onTheWire,
    spHeaderOf, List.map_cons, List.map_nil, List.cons.injEq, and_true, UInt16.toNat_mod]
  simp only [Nat.mod_eq_of_lt, hfits, hlength, hseconds, hfraction, true_and]
  exact ⟨rfl, trivial⟩

theorem accepted_spHeaderOf {packet : DownlinkPacket} (htype : packet.spHeader.typeId = 0)
    (hidle : packet.spHeader.applicationId ≠ 0x7ff) (hshort : packet.userData.length ≤ TF_MAX_LEN) :
    Accepted ((spHeaderOf timeFraction counters packet.spHeader packet.userData.length
      timeNow).onTheWire, packet.userData) := by
  have hmax : TF_MAX_LEN = 1024 := rfl
  refine ⟨?_, ?_⟩
  · simpa [downlinkPackets, DownlinkSPHeader.onTheWire, spHeaderOf] using ⟨htype, hidle⟩
  · change (UInt16.ofNat (packet.userData.length + 9)).toNat + 7 = 16 + packet.userData.length
    rw [toNat_ofNat_of_small (by omega)]
    omega

/-- What is left when a packet has been committed that begins at the current position. -/
structure Committed (buf : Memory UInt8) (spHeader : DownlinkSPHeader) (userLen : Nat)
    (envelop after : DownlinkEnvelop) : Prop where
  buf_eq : after.buf = DownlinkSPHeader.serialize spHeader buf envelop.indexOfCurrentSP.toNat
  index_eq : after.indexOfCurrentSP.toNat = envelop.indexOfCurrentSP.toNat + 16 + userLen
  lenOfCurrentTF_eq : after.lenOfCurrentTF = envelop.lenOfCurrentTF

theorem committed_commitSP (userLen : Nat) (hsome : 1 ≤ userLen)
    (hlen : envelop.lenOfCurrentUserData = .ofNat userLen)
    (hroom : envelop.indexOfCurrentSP.toNat + 16 + userLen ≤ TF_MAX_LEN) :
    Committed envelop.buf
      (spHeaderOf timeFraction counters envelop.spHeader userLen timeNow) userLen envelop
      (commitSP timeFraction envelop counters timeNow).1 := by
  have hmax : TF_MAX_LEN = 1024 := rfl
  have huser : (UInt16.ofNat userLen).toNat = userLen :=
    toNat_ofNat_of_small (by omega)
  have hnotEmpty : envelop.lenOfCurrentUserData ≠ 0 := by
    rw [hlen]
    exact ne_zero_of_pos (by omega)
  have hlenSP : (DownlinkSPHeader.HEADER_SIZE + UInt16.ofNat userLen).toNat = 16 + userLen := by
    rw [toNat_add_of_small (by change 16 + _ < 65536; omega), huser]
    rfl
  have hlength : DownlinkSPHeader.HEADER_SIZE + UInt16.ofNat userLen - 6 - 1 =
      UInt16.ofNat (userLen + 9) := by
    rw [DownlinkSPHeader.HEADER_SIZE, UInt16.ofNat_add]
    grind
  have hcommit : (commitSP timeFraction envelop counters timeNow).1 =
      { envelop with
        lenOfCurrentSP := DownlinkSPHeader.HEADER_SIZE + UInt16.ofNat userLen
        spHeader := spHeaderOf timeFraction counters envelop.spHeader userLen timeNow
        buf := (spHeaderOf timeFraction counters envelop.spHeader userLen timeNow).serialize
          envelop.buf envelop.indexOfCurrentSP.toNat
        indexOfCurrentSP := envelop.indexOfCurrentSP +
          (DownlinkSPHeader.HEADER_SIZE + UInt16.ofNat userLen) } := by
    rw [spHeaderOf, ← hlength, ← hlen]
    exact congrArg Prod.fst (if_neg hnotEmpty)
  rw [hcommit]
  refine ⟨rfl, ?_, rfl⟩
  change (envelop.indexOfCurrentSP + _).toNat = _
  rw [toNat_add_of_small (by omega), hlenSP, Nat.add_assoc]

end commitSP

section addSP

theorem toNat_userIndex (hindex : envelop.indexOfCurrentSP.toNat + 6 ≤ 1000) :
    (envelop.indexOfCurrentSP + DownlinkSPHeader.HEADER_SIZE).toNat =
      envelop.indexOfCurrentSP.toNat + 16 := by
  have hmax : TF_MAX_LEN = 1024 := rfl
  exact @toNat_index_add envelop.indexOfCurrentSP 16 (by omega)

theorem toNat_beginNewSP (hindex : envelop.indexOfCurrentSP.toNat + 6 ≤ 1000) :
    envelop.beginNewSP.1.toNat = 1000 - (envelop.indexOfCurrentSP.toNat + 16 + 6) := by
  rw [← toNat_userIndex hindex]
  exact @toNat_maxUserLen 1000 _ 6 (by decide)

variable {packet : DownlinkPacket}

theorem committed_addSP (hindex : envelop.indexOfCurrentSP.toNat + 6 ≤ 1000)
    (hsome : 1 ≤ packet.userData.length)
    (hroom : envelop.indexOfCurrentSP.toNat + 16 + packet.userData.length + 6 ≤ 1000) :
    Committed (envelop.buf.storeAll (envelop.indexOfCurrentSP.toNat + 16) packet.userData)
      (spHeaderOf timeFraction counters packet.spHeader packet.userData.length packet.timeNow)
      packet.userData.length envelop (addSP timeFraction (envelop, counters) packet).1 := by
  have hmax : TF_MAX_LEN = 1024 := rfl
  have hadded := @committed_commitSP timeFraction
    (envelop.beginNewSP.2.fillSP packet.spHeader packet.userData) counters packet.timeNow
    packet.userData.length hsome rfl
    (by change envelop.indexOfCurrentSP.toNat + 16 + _ ≤ _; omega)
  refine ⟨?_, hadded.index_eq, hadded.lenOfCurrentTF_eq⟩
  rw [← toNat_userIndex hindex]
  exact hadded.buf_eq

theorem Holds.addSP (h : Holds envelop packets) (hsome : 1 ≤ packet.userData.length)
    (hfew : packet.userData.length ≤ envelop.beginNewSP.1.toNat)
    (hheader : packet.spHeader.Sent) :
    Holds (addSP timeFraction (envelop, counters) packet).1
      (packets ++ committed timeFraction (envelop, counters) [packet]) := by
  have hmax : TF_MAX_LEN = 1024 := rfl
  have hindex := h.index_le
  obtain ⟨htype, hidle, hfits⟩ := hheader
  rw [toNat_beginNewSP hindex] at hfew
  have hadded := @committed_addSP timeFraction envelop counters packet hindex hsome (by omega)
  have hlaid := h.laid.add
    (spHeaderOf timeFraction counters packet.spHeader packet.userData.length packet.timeNow)
    packet.userData
  rw [cut_spHeaderOf hfits] at hlaid
  refine ⟨?_, ?_, hadded.lenOfCurrentTF_eq.trans h.lenOfCurrentTF_eq, ?_,
    fun index hlow hhigh => ?_⟩
  · rw [hadded.buf_eq, hadded.index_eq]
    exact hlaid
  · rw [hadded.index_eq]
    omega
  · refine List.forall_mem_append.mpr ⟨h.accepted, List.forall_mem_singleton.mpr ?_⟩
    exact accepted_spHeaderOf htype hidle (by omega)
  · rw [hadded.index_eq] at hlow
    rw [hadded.buf_eq]
    refine Eq.trans (@PackedRecord.serialize_outside _ DownlinkSPHeader.format _ _ _ _ ?_) ?_
    · refine .inr ?_
      change envelop.indexOfCurrentSP.toNat + 16 ≤ index
      omega
    · rw [Memory.storeAll_outside (.inr (by omega))]
      exact h.rest_eq index (by omega) hhigh

end addSP

theorem Holds.foldl {state : DownlinkEnvelop × DownlinkCounters} {more : List DownlinkPacket}
    (h : Holds state.1 packets) (hroom : Fits timeFraction state more)
    (hheaders : ∀ packet ∈ more, packet.spHeader.Sent) :
    Holds (more.foldl (DownlinkEnvelop.addSP timeFraction) state).1
      (packets ++ committed timeFraction state more) := by
  induction more generalizing state packets with
  | nil => simpa [committed] using h
  | cons packet more ih =>
    obtain ⟨hsome, hfew, hlater⟩ := hroom
    obtain ⟨hpacket, hothers⟩ := List.forall_mem_cons.mp hheaders
    have hnext := ih (h.addSP hsome hfew hpacket) hlater hothers
    rwa [List.append_assoc] at hnext

section commitTF

/-- The packets end here: there is no room for another one, or what would be its header is that of
none. -/
def EndsAt (buf : Memory UInt8) (stop : Nat) : Prop :=
  stop + 16 + 6 > 1000 ∨
    downlinkPackets.refused (DownlinkSPHeader.deserialize buf stop) = true

theorem EndsAt.congr {buf other : Memory UInt8} {stop : Nat} (h : EndsAt buf stop)
    (hsame : ∀ index, stop ≤ index → index + 6 < 1000 → other index = buf index) :
    EndsAt other stop := by
  by_cases hfull : stop + 16 + 6 > 1000
  · exact .inl hfull
  · have hheader : DownlinkSPHeader.deserialize other stop =
        DownlinkSPHeader.deserialize buf stop := by
      refine @PackedRecord.deserialize_congr _ DownlinkSPHeader.format _ _ _
        fun index hlow hhigh => ?_
      have hsize : index < stop + 16 := hhigh
      exact hsame index hlow (by omega)
    refine .inr ?_
    rw [hheader]
    exact h.resolve_left hfull

theorem refused_iff {header : DownlinkSPHeader} :
    downlinkPackets.refused header = true ↔ header.typeId ≠ 0 ∨ header.applicationId = 0x7ff := by
  simp [downlinkPackets]

/-- A byte that has been filled in ends the frame. -/
theorem endsAt_filled {buf : Memory UInt8} {stop : Nat} (hfilled : buf stop = 0xff) :
    EndsAt buf stop := by
  have htype : getBitField buf stop 3 1 = 1 := by
    have hused : 3 % 8 + UInt8.toNat 1 = 4 := rfl
    have hbyte : stop + 3 / 8 = stop := rfl
    have hword : wordAt buf stop 4 = (0xff : UInt32) <<< 16 := by simp [wordAt, hfilled]
    rw [getBitField, hused, hbyte, hword]
    decide
  have htypeId : (DownlinkSPHeader.deserialize buf stop).typeId = 1 := congrArg UInt32.toUInt8 htype
  refine .inr (refused_iff.mpr (.inl ?_))
  rw [htypeId]
  decide

/-- The header of the idle packet, before it is committed. -/
def idleSPHeader : DownlinkSPHeader where
  secHeaderFlag := 1
  groupingFlags := 0x3
  dataPackLen := 9
  service := 3
  subservice := 25
  applicationId := 0x7ff

theorem fits_idleSPHeader : DownlinkSPHeader.format.Fits idleSPHeader := by
  simp [PackedRecord.Fits, DownlinkSPHeader.format, DownlinkSPHeader.fields, idleSPHeader]

/-- What `addIdleSP` leaves of a frame. -/
theorem Holds.addIdleSP {timeNow : Int64} (h : Holds envelop packets) :
    let after := (addIdleSP timeFraction envelop counters timeNow).1
    (∀ index < envelop.indexOfCurrentSP.toNat, after.buf index = envelop.buf index) ∧
      EndsAt after.buf envelop.indexOfCurrentSP.toNat ∧ after.lenOfCurrentTF = DOWNLINK_TF_LEN := by
  have hmax : TF_MAX_LEN = 1024 := rfl
  have hindex := h.index_le
  have hrest := toNat_beginNewSP hindex
  by_cases hfull : envelop.beginNewSP.1 = 0
  · have hsame : (DownlinkEnvelop.addIdleSP timeFraction envelop counters timeNow).1 =
        envelop.beginNewSP.2 := congrArg Prod.fst (if_pos hfull)
    rw [hsame]
    refine ⟨fun _ _ => rfl, ?_, h.lenOfCurrentTF_eq⟩
    exact endsAt_filled (h.rest_eq _ (Nat.le_refl _) (by omega))
  · let idle : DownlinkEnvelop :=
      { envelop.beginNewSP.2 with
        spHeader := idleSPHeader
        lenOfCurrentUserData := envelop.beginNewSP.1 }
    have hidle : (DownlinkEnvelop.addIdleSP timeFraction envelop counters timeNow).1 =
        (commitSP timeFraction idle counters timeNow).1 := congrArg Prod.fst (if_neg hfull)
    have hsome : envelop.beginNewSP.1.toNat ≠ 0 := fun hzero => hfull (UInt16.toNat_inj.mp hzero)
    have hadded : Committed idle.buf _ _ idle (commitSP timeFraction idle counters timeNow).1 :=
      committed_commitSP envelop.beginNewSP.1.toNat (by omega) UInt16.ofNat_toNat.symm
        (by change envelop.indexOfCurrentSP.toNat + 16 + _ ≤ _; omega)
    rw [hidle]
    refine ⟨fun index hbefore => ?_, .inr ?_, hadded.lenOfCurrentTF_eq.trans h.lenOfCurrentTF_eq⟩
    · rw [hadded.buf_eq]
      exact @PackedRecord.serialize_outside _ DownlinkSPHeader.format _ _ _ _ (.inl hbefore)
    · have hheader := @PackedRecord.deserialize_serialize _ DownlinkSPHeader.format
        (spHeaderOf timeFraction counters idle.spHeader envelop.beginNewSP.1.toNat timeNow) idle.buf
        envelop.indexOfCurrentSP.toNat
      rw [cut_spHeaderOf fits_idleSPHeader] at hheader
      rw [hadded.buf_eq]
      exact (congrArg downlinkPackets.refused hheader).trans (refused_iff.mpr (.inr rfl))

theorem fields_crc (trailer : DownlinkTFTrailer) (crc : UInt16) :
    DownlinkTFTrailer.fields { trailer with crc := crc } =
      trailer.fields.take 14 ++ [(16, crc.toNat)] := by
  simp [DownlinkTFTrailer.fields]

/-- The two bytes of the checksum are the last ones of the trailer: what has been written of it
before them stays. -/
theorem trailer_again (trailer : DownlinkTFTrailer) (crc : UInt16) (buf : Memory UInt8)
    {start index : Nat} (hbefore : index < start + 4) :
    DownlinkTFTrailer.serialize { trailer with crc := crc } (trailer.serialize buf start) start
      index = trailer.serialize buf start index := by
  have hfront : 8 * index + 8 ≤ 8 * start + ((trailer.fields.take 14).map Prod.fst).sum := by
    simp [DownlinkTFTrailer.fields]
    omega
  exact @PackedRecord.serialize_again _ DownlinkTFTrailer.format buf start trailer
    { trailer with crc := crc } (trailer.fields.take 14) [(16, trailer.crc.toNat)]
    [(16, crc.toNat)] (fields_crc trailer trailer.crc) (fields_crc trailer crc) index hfront

theorem crc_cut (trailer : DownlinkTFTrailer) :
    (DownlinkTFTrailer.format.cut trailer).crc = trailer.crc := by
  change UInt16.ofNat (trailer.crc.toNat % 2 ^ 16) = trailer.crc
  rw [Nat.mod_eq_of_lt trailer.crc.toNat_lt, UInt16.ofNat_toNat]

theorem commitClcwToTF_outside (envelop : DownlinkEnvelop) {index : Nat}
    (hbefore : index < envelop.lenOfCurrentTF.toNat - 6) :
    envelop.commitClcwToTF.buf index = envelop.buf index := by
  apply Eq.trans (trailer_again _ _ _ (Nat.lt_add_right 4 hbefore))
  exact @PackedRecord.serialize_outside _ DownlinkTFTrailer.format _ _ _ _ (.inl hbefore)

theorem intact_commitClcwToTF (hlenTF : envelop.lenOfCurrentTF = DOWNLINK_TF_LEN) :
    Intact envelop.commitClcwToTF.buf := by
  have hat : envelop.lenOfCurrentTF.toNat - 6 = 994 := by
    rw [hlenTF]
    rfl
  have hcrc : (trailerOf envelop.commitClcwToTF.buf).crc =
      envelop.commitClcwToTF.tfTrailer.crc := by
    rw [trailerOf, ← hat, ← crc_cut envelop.commitClcwToTF.tfTrailer]
    exact congrArg DownlinkTFTrailer.crc
      (@PackedRecord.deserialize_serialize _ DownlinkTFTrailer.format _ _ _)
  have hlen : envelop.lenOfCurrentTF.toNat = 1000 := by
    rw [hlenTF]
    rfl
  rw [Intact, hcrc, Checked, ← hlen]
  refine congrArg (crcChecker.computeCRC · CRC_SEED) (Memory.front_congr fun index hbefore => ?_)
  have hlast : index < envelop.lenOfCurrentTF.toNat - 6 + 4 := by omega
  exact trailer_again envelop.tfTrailer _ _ hlast

/-- What the ground finds in a frame that is complete. -/
structure Complete (buf : Memory UInt8) (packets : List (DownlinkSPHeader × List UInt8))
    (stop : Nat) : Prop where
  laid : Laid DownlinkSPHeader.format buf 6 packets stop
  stop_le : stop + 6 ≤ 1000
  ended : EndsAt buf stop
  accepted : ∀ packet ∈ packets, Accepted packet
  intact : Intact buf

theorem Holds.commitTF {timeNow : Int64} (h : Holds envelop packets) :
    Complete (commitTF timeFraction envelop counters timeNow).1.buf packets
      envelop.indexOfCurrentSP.toNat := by
  obtain ⟨hkept, hended, hlenTF⟩ :=
    @Holds.addIdleSP timeFraction envelop counters packets timeNow h
  obtain ⟨tfHeader, hframe⟩ : ∃ tfHeader : DownlinkTFHeader,
      (DownlinkEnvelop.commitTF timeFraction envelop counters timeNow).1 =
        commitClcwToTF
          { (DownlinkEnvelop.addIdleSP timeFraction envelop counters timeNow).1 with
            tfHeader := tfHeader
            buf := tfHeader.serialize
              (DownlinkEnvelop.addIdleSP timeFraction envelop counters timeNow).1.buf 0 } :=
    ⟨_, rfl⟩
  rw [hframe]
  generalize (DownlinkEnvelop.addIdleSP timeFraction envelop counters timeNow).1 = filled at *
  have hlen : filled.lenOfCurrentTF.toNat = 1000 := by
    rw [hlenTF]
    rfl
  have hinside {index : Nat} (hlow : 6 ≤ index) (hhigh : index + 6 < 1000) :
      (commitClcwToTF
        { filled with tfHeader := tfHeader, buf := tfHeader.serialize filled.buf 0 }).buf index =
          filled.buf index := by
    have hlast : index < filled.lenOfCurrentTF.toNat - 6 := by omega
    refine (commitClcwToTF_outside
      { filled with tfHeader := tfHeader, buf := tfHeader.serialize filled.buf 0 } hlast).trans ?_
    exact @PackedRecord.serialize_outside _ DownlinkTFHeader.format _ _ _ _ (.inr hlow)
  have hsix := h.laid.le
  have hindex := h.index_le
  refine ⟨h.laid.congr fun index hlow hhigh => ?_, hindex, hended.congr fun index hlow hhigh => ?_,
    h.accepted, intact_commitClcwToTF hlenTF⟩
  · exact (hinside hlow (by omega)).trans (hkept index hhigh)
  · exact hinside (by omega) hhigh

end commitTF

/-- The ground needs the bytes of the frame only. -/
theorem Complete.congr {buf other : Memory UInt8} {stop : Nat} (h : Complete buf packets stop)
    (hsame : ∀ index < 1000, other index = buf index) : Complete other packets stop := by
  have hstop := h.stop_le
  refine ⟨h.laid.congr fun index _ hhigh => hsame index (by omega), hstop,
    h.ended.congr fun index _ hhigh => hsame index (by omega), h.accepted, ?_⟩
  have htrailer : trailerOf other = trailerOf buf := by
    refine @PackedRecord.deserialize_congr _ DownlinkTFTrailer.format _ _ _ fun index _ hhigh => ?_
    have hsize : index < 994 + 6 := hhigh
    exact hsame index (by omega)
  rw [Intact, htrailer]
  refine Eq.trans (congrArg (crcChecker.computeCRC · CRC_SEED) ?_) h.intact
  exact Memory.front_congr fun index hbefore => hsame index (by omega)

/-- A frame with these packets is accepted, and they are taken out of it. -/
theorem Complete.received {stop : Nat} {receiver : DownlinkEnvelop}
    (h : Complete receiver.buf packets stop) :
    ∃ after, receiver.checkoutTF = some (true, after) ∧
      Yields checkoutNextSP (fun after => (after.spHeader, after.userData)) after packets := by
  have hnext : checkoutNextSP = nextPacket downlinkPackets := funext checkoutNextSP_downlink
  refine ⟨receiver.opened, ?_, ?_⟩
  · rw [checkoutTF_eq receiver, decide_eq_true h.intact]
  · rw [hnext]
    refine yields_of_laid h.laid rfl (by decide) ?_ h.stop_le h.accepted h.ended
    change 1000 ≤ 1024
    decide

theorem taken_out (timeFraction : Int64 → UInt16) (spacecraft receiver : DownlinkEnvelop)
    (counters : DownlinkCounters) {packets : List DownlinkPacket} (timeNow : Int64)
    (hroom : Fits timeFraction (spacecraft.beginNewTF, counters) packets)
    (hheaders : ∀ packet ∈ packets, packet.spHeader.Sent)
    (hsent : ∀ index < 1000, receiver.buf index =
      (spacecraft.build timeFraction counters packets timeNow).1.buf index) :
    ∃ after, receiver.checkoutTF = some (true, after) ∧
      Yields checkoutNextSP (fun after => (after.spHeader, after.userData)) after
        (committed timeFraction (spacecraft.beginNewTF, counters) packets) := by
  have hholds : Holds (packets.foldl (addSP timeFraction) (spacecraft.beginNewTF, counters)).1
      (committed timeFraction (spacecraft.beginNewTF, counters) packets) :=
    (holds_beginNewTF spacecraft).foldl hroom hheaders
  exact (hholds.commitTF.congr hsent).received

end DownlinkEnvelop

end Rodos.Ccsds
