import Screencast.Proofs.Kept
import Screencast.Proofs.Tracks
import Screencast.Rehearsal.Obliging

/-!
# The pictures of a container

With a container every picture that the encoder hands out is written to the track of the video, in
order and once, with the bytes of its slot, its flags and its time. Only the picture at which a run
fails may be missing.

* `History.pictures`: the pictures that were handed out.
* `Channel.packets`: what a container gets of them.
* `pictures_written`: the whole run.
-/

namespace Screencast

/-- Whether a buffer holds a picture: it is not empty and not made of parameters of the codec. -/
def FilledBuffer.isPicture (b : FilledBuffer) : Bool := 0 < b.size && !b.flags.isConfig

/-- The pictures that the encoder has handed out. -/
def History.pictures (h : History) : List Handout :=
  (h.handouts []).filter fun o => o.buffer.isPicture

namespace Channel

/-- The packets that a container gets of the pictures. -/
def packets : Channel Packet where
  wanted := FilledBuffer.isPicture
  due o := o.packet?.map ([·])
  out h := h.writes.map Write.packet
  size_pos := by
    intro b hb
    simp only [FilledBuffer.isPicture, Bool.and_eq_true, decide_eq_true_eq] at hb
    exact hb.1
  due_andThen := by
    intro o k l hl
    obtain ⟨p, hp, rfl⟩ := Option.map_eq_some_iff.1 hl
    rw [Handout.packet?_andThen hp]
    rfl
  out_append := by simp
  out_quiet := fun hq => by rw [hq.writes_eq_nil]; rfl

/-- A container takes the pictures. -/
theorem packets_serves (m : Muxed) : packets.Serves (.muxed m) where
  wanted_iff := by
    intro b payload time hl
    have hkeeps : (Sink.muxed m).keepsConfig = false := rfl
    have hempty : payload = [] ↔ ¬0 < b.size := by
      rw [← hl, List.length_pos_iff, Decidable.not_not]
    simp only [packets, FilledBuffer.isPicture, Take.Unwanted, sampleOf, hkeeps, hempty,
      Bool.and_eq_true, decide_eq_true_eq, Bool.not_eq_true', and_true, not_or, not_not,
      Bool.not_eq_true]
    exact and_comm
  sent := by
    intro o payload time k x sink' _ hb ht hw
    cases hw with
    | muxed hw =>
      cases hw with
      | early => exact ⟨fun h => (by cases h), .inl rfl⟩
      | wrote track hv hw =>
        cases hw with
        | refused => exact ⟨fun h => (by cases h), .inl rfl⟩
        | handed answer hs =>
          have hdue : packets.due o = some [⟨payload, time, o.buffer.flags⟩] := by
            simp [packets, Handout.packet?, hb, ht]
          exact ⟨fun _ => hdue, .inr ⟨_, hdue, List.prefix_rfl⟩⟩

end Channel

namespace Session

open Rehearsal

variable {h : History} {container : Container}
  {result : Option (Outcome Recording × Session)}

/-- The calls of a run have written `sent` of the pictures that the encoder handed out. At most one
was lost, the last one that was asked for, at which the run fails. -/
structure PicturesWritten (h : History) (result : Option (Outcome Recording × Session))
    (sent lost : List Handout) : Prop where
  handedOut : (h.before .draining).pictures = sent ++ lost
  written : sent.map Handout.packet? = (h.before .draining).writes.map fun w => some w.packet
  track : ∀ w ∈ (h.before .draining).writes, h.videoTrack? = some w.track
  failed : lost = [] ∨ ∃ o f s, lost = [o] ∧ o.rest.Idle ∧ result = some (.error f, s)
  idle : (h.since .draining).Idle
  counted : ∀ recording s, result = some (.ok recording, s) →
    lost = [] ∧ recording.frameCount = UInt64.ofNat sent.length

/-- **Every picture is written once.** In any run with a container, finished or not, what the loop
writes are the pictures that the encoder hands out, in their order and each with its bytes, its time
and its flags, all to the track that was added for the first format. A run that ends well has lost
none and counts as many frames. -/
theorem pictures_written {settings : Settings} {hasMuxer : Bool} {output : Option Raw}
    {passes : Nat} (hc : settings.format.container? = some container)
    (hr : (run passes (ofSettings settings hasMuxer output)).Runs h result) :
    ∃ sent lost, PicturesWritten h.calls result sent lost := by
  have hran := ensures_run passes _ h result hr
  obtain ⟨sent, lost, part, hk⟩ := kept_of_ran (c := Channel.packets) (fun hp sink hface => by
    obtain ⟨path, hsink⟩ := Prepared.muxed (s := (ofSettings settings hasMuxer output).begun) hc hp
    rw [hsink] at hface
    cases sink with
    | muxed m => exact Channel.packets_serves m
    | raw => cases hface) hran
  obtain ⟨chunks, hdue, hout⟩ := hk.conveyed.out
  have hpart : part = [] := Channel.part_of_single <| hk.part.imp id fun ⟨o, l, _, h⟩ => ⟨o, l, h⟩
  rw [hpart, List.append_nil] at hout
  have hpackets : sent.map Handout.packet? =
      (h.calls.before .draining).writes.map fun w => some w.packet := by
    rw [Channel.map_of_single hdue, ← hout]
    exact List.map_map
  have hwanted : (h.calls.before .draining).pictures = sent ++ lost := hk.conveyed.wanted
  refine ⟨sent, lost, hwanted, hpackets, written_to_video hc hran, hk.failed, hk.idle, ?_⟩
  rintro recording s rfl
  refine ⟨hk.lost_eq_nil, ?_⟩
  rw [hk.frames recording s rfl, Channel.pictures, List.countP_eq_length.2]
  intro o ho
  have hpicture : o ∈ History.pictures (h.calls.before .draining) := by
    rw [hwanted]
    exact List.mem_append_left _ ho
  have hflags := (List.mem_filter.1 hpicture).2
  simp only [FilledBuffer.isPicture, Bool.and_eq_true] at hflags
  exact hflags.2

/-- A recording of two pictures, one without a time and one after parameters of the codec. -/
theorem pictures_written_obliging :
    let p := run 9 (ofSettings .standard true none)
    let device := Obliging.ofEvents [.formatChanged, .buffer ⟨0, 1, 2, 0, .empty⟩,
      .buffer ⟨1, 0, 1, 0, .codecConfig⟩, .buffer ⟨1, 0, 4, 7, .keyFrame⟩]
    let h := (p.history Obliging.answer device).calls
    (h.before .draining).writes.map Write.packet =
        [⟨[2, 3], 5, .empty⟩, ⟨[1, 2, 3, 4], 7, .keyFrame⟩] ∧
      ∃ sent lost, PicturesWritten h (p.run Obliging.answer device).1 sent lost :=
  ⟨by decide +kernel, pictures_written rfl (Program.runs_run _ _ _)⟩

end Session

end Screencast
