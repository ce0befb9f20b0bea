import Rodos.Ccsds.DownlinkRoundTrip
import Rodos.Ccsds.UplinkRoundTrip

/-! Both directions: what one side puts into a frame, the other side takes out of it. -/
namespace Rodos.Ccsds
open Library

/-- The receiver has the bytes of a frame that has been built with any packets for which there is
room. The frame is accepted, and the packets are returned in their order, and then no other. -/
theorem envelop_round_trip :
    (∀ (ground spacecraft : UplinkEnvelop) (packets : List (UplinkSPHeader × List UInt8)),
      ground.beginNewTF.Fits packets → (∀ packet ∈ packets, packet.1.Sent) →
      (∀ index < (ground.build packets).lenOfCurrentTF.toNat,
        spacecraft.buf index = (ground.build packets).buf index) →
      ∃ after, spacecraft.checkoutTF = some (true, after) ∧
        Yields UplinkEnvelop.checkoutNextSP (fun after => (after.spHeader, after.userData)) after
          (packets.map UplinkEnvelop.committed)) ∧
    ∀ (timeFraction : Int64 → UInt16) (spacecraft ground : DownlinkEnvelop)
      (counters : DownlinkCounters) (packets : List DownlinkPacket) (timeNow : Int64),
      DownlinkEnvelop.Fits timeFraction (spacecraft.beginNewTF, counters) packets →
      (∀ packet ∈ packets, packet.spHeader.Sent) →
      (∀ index < DOWNLINK_TF_LEN.toNat, ground.buf index =
        (spacecraft.build timeFraction counters packets timeNow).1.buf index) →
      ∃ after, ground.checkoutTF = some (true, after) ∧
        Yields DownlinkEnvelop.checkoutNextSP (fun after => (after.spHeader, after.userData)) after
          (DownlinkEnvelop.committed timeFraction (spacecraft.beginNewTF, counters) packets) :=
  ⟨fun ground spacecraft _ hroom hheaders hsent =>
      UplinkEnvelop.taken_out ground spacecraft hroom hheaders hsent,
    fun timeFraction spacecraft ground counters _ timeNow hroom hheaders hsent =>
      DownlinkEnvelop.taken_out timeFraction spacecraft ground counters timeNow hroom hheaders
        hsent⟩

/-- Two telecommands, and telemetry that fills its frame. -/
theorem envelop_round_trip_full_frame :
    let ground : UplinkEnvelop := ⟨fun _ => 0, 0, 0, 0, 0, 0, 0, {}, {}, {}⟩
    let commands : List (UplinkSPHeader × List UInt8) :=
      [({ applicationId := 5 }, [1, 2, 3]), ({ applicationId := 6 }, [7])]
    let spacecraft : DownlinkEnvelop := ⟨fun _ => 0, 0, 0, 0, 0, 0, 0, {}, {}, {}⟩
    let telemetry : List DownlinkPacket :=
      [⟨{ applicationId := 9 }, List.replicate 972 7, 0⟩]
    (∃ after, UplinkEnvelop.checkoutTF (ground.build commands) = some (true, after) ∧
      Yields UplinkEnvelop.checkoutNextSP (fun after => (after.spHeader, after.userData)) after
        (commands.map UplinkEnvelop.committed)) ∧
    ∃ after, DownlinkEnvelop.checkoutTF (spacecraft.build (fun _ => 0) {} telemetry 0).1 =
        some (true, after) ∧
      Yields DownlinkEnvelop.checkoutNextSP (fun after => (after.spHeader, after.userData)) after
        (DownlinkEnvelop.committed (fun _ => 0) (spacecraft.beginNewTF, {}) telemetry) := by
  intro ground commands spacecraft telemetry
  refine ⟨envelop_round_trip.1 ground _ commands ?_ ?_ fun _ _ => rfl,
    envelop_round_trip.2 (fun _ => 0) spacecraft _ {} telemetry 0 ?_ ?_ fun _ _ => rfl⟩
  · refine ⟨?_, ?_, ?_, ?_, trivial⟩ <;> decide +kernel
  · simp [commands, UplinkSPHeader.Sent, PackedRecord.Fits, UplinkSPHeader.format,
      UplinkSPHeader.fields]
  · refine ⟨?_, ?_, trivial⟩ <;> decide +kernel
  · refine List.forall_mem_singleton.mpr ⟨rfl, by decide, ?_⟩
    simp [PackedRecord.Fits, DownlinkSPHeader.format, DownlinkSPHeader.fields]

end Rodos.Ccsds
