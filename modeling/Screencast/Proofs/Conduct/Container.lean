import Screencast.Proofs.Conduct.Sink

/-!
# The conduct of a container in any use

A container can be used by itself, its operations in any order and any number of times. What comes
of them is told in moves: a move is one call to the container writer together with what it does to
the container, and every operation is a few moves in a row.

* `Muxed.use`: a container is made and operations are done to it, whatever comes of each.
* `Muxed.Move`: what one call does, and when it is made.
* `Muxed.ends_operate`: operations are moves.
* `Muxed.ends_use`: a container's whole use, from the marking of its file on.
-/

namespace Screencast.Muxed

/-- What can be done to a container. -/
inductive Operation
  | formatChanged (format : TrackFormat)
  | addTrack (format : TrackFormat)
  | start
  | write (track : Track) (data : Bytes) (time : Int) (flags : Flags)
  | writeSample (s : Sample)
  | writeTimes (log : FrameTimes.Log) (offset : Int)
  | stop
  | close

/-- The container after an action, whatever came of the action. -/
def left {α : Type} (a : Action Muxed α) (m : Muxed) : Program Muxed := do
  let (_, m) ← a m
  return m

namespace Operation

/-- The container after an operation. -/
def perform : Operation → Muxed → Program Muxed
  | formatChanged format => left (Muxed.formatChanged format)
  | addTrack format => left (Muxed.addTrack format)
  | start => left Muxed.start
  | write track data time flags => left (Muxed.write track data time flags)
  | writeSample s => left (Muxed.writeSample s)
  | writeTimes log offset => left (Muxed.writeTimes log offset)
  | stop | close => left Muxed.stop

/-- The operations that end the use of a container. -/
def finishes : Operation → Bool
  | stop | close => true
  | formatChanged _ | addTrack _ | start => false
  | write _ _ _ _ | writeSample _ | writeTimes _ _ => false

end Operation

/-- The container after a number of operations. -/
def operate : List Operation → Muxed → Program Muxed
  | [], m => return m
  | o :: rest, m => do operate rest (← o.perform m)

/-- A container that is made, in place of what is at its path or in a writer that was made for it,
and the operations that are done to it. -/
def use (fresh : Bool) (path : Path) (container : Container) (rotate : Bool)
    (operations : List Operation) : Program (Outcome Muxed) := do
  let made : Action Unit Muxed :=
    if fresh then create path container rotate else make path container rotate
  match (← made ()).1 with
  | .error e => return .error e
  | .ok m => return .ok (← operate operations m)

/-! ## Operations in a row -/

theorem operate_append (earlier later : List Operation) (m : Muxed) :
    operate (earlier ++ later) m = operate earlier m >>= operate later := by
  induction earlier generalizing m with
  | nil => rfl
  | cons o rest ih => simp only [operate, List.cons_append, ih, bind_assoc]

theorem operate_single (o : Operation) (m : Muxed) : operate [o] m = o.perform m :=
  bind_pure (o.perform m)

/-- **A use that goes on.** A container after more operations is what these make of the container
after the first ones. -/
theorem runs_use_append {fresh : Bool} {path : Path} {container : Container} {rotate : Bool}
    {earlier later : List Operation} {h : History} {m' : Muxed}
    (hr : (use fresh path container rotate (earlier ++ later)).Runs h (some (.ok m'))) :
    ∃ h₁ h₂ m, h = h₁ ++ h₂ ∧ (use fresh path container rotate earlier).Runs h₁ (some (.ok m)) ∧
      (operate later m).Runs h₂ (some m') := by
  have happend : use fresh path container rotate (earlier ++ later) =
      use fresh path container rotate earlier >>= fun
        | .error e => return .error e
        | .ok m => do return .ok (← operate later m) := by
    unfold use
    simp only [bind_assoc]
    congr 1
    funext ⟨x, _⟩
    cases x with
    | error e => rfl
    | ok m => simp only [operate_append, bind_assoc, pure_bind]
  rw [happend] at hr
  rcases Program.runs_bind_iff.1 hr with ⟨-, hnone⟩ | ⟨h₁, h₂, e | m, rfl, hfirst, hrest⟩
  · cases hnone
  · obtain ⟨-, hfail⟩ := Program.runs_done_iff.1 hrest
    cases hfail
  · rcases Program.runs_bind_iff.1 hrest with ⟨-, hnone⟩ | ⟨k, l, m'', rfl, hk, hl⟩
    · cases hnone
    · obtain ⟨rfl, hm⟩ := Program.runs_done_iff.1 hl
      cases hm
      exact ⟨h₁, k, m, by rw [List.append_nil], hfirst, hk⟩

/-! ## Moves -/

/-- A container has the tracks that it has to have before it is started. -/
structure HasTracks (m : Muxed) : Prop where
  video : m.videoTrack.isSome
  times : m.keepsTimes = true → m.timeTrack.isSome

/-- A container gets its video track first. -/
def VideoFirst (m : Muxed) : Prop := m.videoTrack = none → m.timeTrack = none

/-- **What one call to the container writer does**, and when it is made. A container that was not
started is stopped without a call. -/
inductive Move : Muxed → History → Muxed → Prop
  | added {m : Muxed} (format : TrackFormat) (answer : Outcome Track) (hs : m.state = .idle) :
      Move m [⟨.muxer (.addTrack format), answer⟩] m
  | gotVideo {m : Muxed} (format : TrackFormat) (track : Track) (hs : m.state = .idle)
      (hv : m.videoTrack = none) :
      Move m [⟨.muxer (.addTrack format), .ok track⟩] { m with videoTrack := some track }
  | gotTimes {m : Muxed} (track : Track) (hs : m.state = .idle) (hv : m.videoTrack.isSome)
      (ht : m.timeTrack = none) :
      Move m [⟨.muxer (.addTrack .octetStream), .ok track⟩] { m with timeTrack := some track }
  | unstarted {m : Muxed} (f : Failure) (hs : m.state = .idle) (ht : m.HasTracks) :
      Move m [⟨.muxer .start, .error f⟩] m
  | started {m : Muxed} (hs : m.state = .idle) (ht : m.HasTracks) :
      Move m [⟨.muxer .start, .ok ()⟩] { m with state := .started }
  | wrote {m : Muxed} (track : Track) (data : Bytes) (time : Int) (flags : Flags)
      (answer : Outcome Unit) (hs : m.state = .started) :
      Move m [⟨.muxer (.write track data time flags), answer⟩] m
  | stopped {m : Muxed} (answer : Outcome Unit) (hs : m.state = .started) :
      Move m [⟨.muxer .stop, answer⟩] { m with state := .stopped }
  | dropped {m : Muxed} (hs : m.state ≠ .started) : Move m [] { m with state := .stopped }

/-- Moves in a row. -/
inductive Moves : Muxed → History → Muxed → Prop
  | none (m : Muxed) : Moves m [] m
  | more {m m' m'' : Muxed} {h k : History} (hm : Move m h m') (hr : Moves m' k m'') :
      Moves m (h ++ k) m''

variable {m m' m'' : Muxed} {h k : History}

theorem Move.single (hm : Move m h m') : Moves m h m' := by
  simpa using Moves.more hm (.none m')

theorem Moves.append (hh : Moves m h m') (hk : Moves m' k m'') : Moves m (h ++ k) m'' := by
  induction hh with
  | none => exact hk
  | more hm _ ih =>
    rw [List.append_assoc]
    exact .more hm (ih hk)

theorem Moves.andMove (hh : Moves m h m') (hk : Move m' k m'') : Moves m (h ++ k) m'' :=
  hh.append hk.single

theorem Move.videoFirst (hm : Move m h m') (hv : m.VideoFirst) : m'.VideoFirst := by
  cases hm with
  | gotVideo => exact fun hn => nomatch hn
  | gotTimes _ _ hsome =>
    intro hn
    exact absurd hn (Option.isSome_iff_ne_none.1 hsome)
  | _ => exact hv

theorem Moves.videoFirst (hm : Moves m h m') (hv : m.VideoFirst) : m'.VideoFirst := by
  induction hm with
  | none => exact hv
  | more hm _ ih => exact ih (hm.videoFirst hv)

theorem Move.stays_stopped (hm : Move m h m') (hs : m.state = .stopped) :
    m'.state = .stopped := by
  cases hm with
  | started hs' => rw [hs] at hs'; cases hs'
  | stopped => rfl
  | dropped => rfl
  | _ => exact hs

theorem Moves.stays_stopped (hm : Moves m h m') (hs : m.state = .stopped) :
    m'.state = .stopped := by
  induction hm with
  | none => exact hs
  | more hm _ ih => exact ih (hm.stays_stopped hs)

/-! ## Operations as moves -/

theorem Tracked.moves {format : TrackFormat} (ht : Tracked format m h m') (hs : m.state = .idle)
    (hv : m.videoTrack = none) (hf : m.VideoFirst) :
    Moves m h m' ∧ m'.state = .idle ∧ m'.HasTracks := by
  cases ht with
  | video video hk =>
    exact ⟨(Move.gotVideo format video hs hv).single, hs, rfl, fun h => nomatch hk.symm.trans h⟩
  | both video times hk =>
    refine ⟨(Move.gotVideo format video hs hv).single.andMove ?_, hs, rfl, fun _ => rfl⟩
    exact .gotTimes (m := { m with videoTrack := some video }) times hs rfl (hf hv)

theorem Reformatted.moves {format : TrackFormat} {x : Outcome Unit}
    (hr : Reformatted format m h (x, m')) (hf : m.VideoFirst) : Moves m h m' := by
  cases hr with
  | again => exact .none m
  | late => exact .none m
  | noVideo f _ hs => exact (Move.added format (.error f) hs).single
  | noTimes video f hv hs =>
    refine (Move.gotVideo format video hs hv).single.andMove ?_
    exact .added (m := { m with videoTrack := some video }) .octetStream (.error f) hs
  | notStarted f hv hs ht =>
    obtain ⟨hmoves, hidle, htracks⟩ := ht.moves hs hv hf
    exact hmoves.andMove (.unstarted f hidle htracks)
  | started hv hs ht =>
    obtain ⟨hmoves, hidle, htracks⟩ := ht.moves hs hv hf
    exact hmoves.andMove (.started hidle htracks)

theorem Wrote.moves {track : Track} {data : Bytes} {time : Int} {flags : Flags}
    {x : Outcome Unit} (hw : Wrote track data time flags m h (x, m')) : Moves m h m' := by
  cases hw with
  | refused => exact .none m
  | handed answer hs => exact (Move.wrote track data time flags x hs).single

theorem Sent.moves {s : Sample} {x : Outcome Unit} (hs : Sent s m h (x, m')) : Moves m h m' := by
  cases hs with
  | early => exact .none m
  | wrote _ _ hw => exact hw.moves

theorem Stamped.moves {log : FrameTimes.Log} {offset : Int} {x : Outcome Unit}
    (hs : Stamped log offset m h (x, m')) : Moves m h m' := by
  cases hs with
  | nothing => exact .none m
  | wrote _ _ _ _ hw => exact hw.moves

theorem ends_addTrack (format : TrackFormat) (m : Muxed) :
    (addTrack format m).Ends fun h r => r.2 = m ∧ Moves m h m := by
  by_cases hs : m.state = .idle
  · exact (ensures_addTrack hs).2 fun answer => ⟨rfl, (Move.added format answer hs).single⟩
  · unfold addTrack
    simp only [Action.ensures_bind, Action.ensures_get, Action.after_ok]
    rw [if_pos hs]
    exact Action.ensures_fail.2 ⟨rfl, .none m⟩

theorem ends_start (m : Muxed) :
    (start m).Ends fun h r => r.2.videoTrack = m.videoTrack ∧ Moves m h r.2 := by
  by_cases ht : m.state = .idle ∧ m.HasTracks
  · obtain ⟨hs, ht⟩ := ht
    refine (ensures_start hs ht.video ht.times).2 ⟨fun f => ?_, ?_⟩
    · exact ⟨rfl, (Move.unstarted f hs ht).single⟩
    · exact ⟨rfl, (Move.started hs ht).single⟩
  -- nothing is asked of the writer, whichever of the checks fails
  · unfold start
    simp only [Action.ensures_bind, Action.ensures_get, Action.after_ok, List.nil_append]
    cases hs : m.state with
    | started =>
      simp only [Action.ensures_lift, Program.ensures_report, Option.map_some]
      exact ⟨rfl, .none m⟩
    | stopped => exact Action.ensures_fail.2 ⟨rfl, .none m⟩
    | idle =>
      have hcheck : m.videoTrack.isNone ∨ m.keepsTimes ∧ m.timeTrack.isNone := by
        by_contra hn
        obtain ⟨hv, htimes⟩ := not_or.1 hn
        refine ht ⟨hs, by simpa [Option.isSome_iff_ne_none] using hv, fun hk => ?_⟩
        by_contra hnone
        exact htimes ⟨hk, by simpa using hnone⟩
      simp only
      split
      · exact Action.ensures_fail.2 ⟨rfl, .none m⟩
      · rename_i hv
        rw [if_pos (hcheck.resolve_left hv)]
        exact Action.ensures_fail.2 ⟨rfl, .none m⟩

theorem ends_stop (m : Muxed) :
    (stop m).Ends fun h r => Moves m h r.2 ∧ r.2.state = .stopped := by
  refine ensures_stop.2 ?_
  split
  · rename_i hs
    exact fun answer => ⟨(Move.stopped answer hs).single, rfl⟩
  · rename_i hs
    exact ⟨(Move.dropped hs).single, rfl⟩

theorem ends_left {α : Type} {a : Action Muxed α} {R : History → Muxed → Prop}
    (ha : (a m).Ends fun h r => R h r.2) : (left a m).Ends R := by
  refine Program.ensures_bind.2 (ha.ensures fun h r hr => ?_)
  simpa only [Program.pure_eq, Program.ensures_done, Program.finished_some, List.append_nil]
    using hr

/-- **An operation is a few moves**, and the container is stopped after one that ends its use. -/
theorem ends_perform (o : Operation) (hf : m.VideoFirst) :
    (o.perform m).Ends fun h m' => Moves m h m' ∧ (o.finishes = true → m'.state = .stopped) := by
  have hmoves : ∀ {α : Type} {a : Action Muxed α}, o.finishes = false →
      ((a m).Ends fun h r => Moves m h r.2) →
      (Muxed.left a m).Ends fun h m' =>
        Moves m h m' ∧ (o.finishes = true → m'.state = .stopped) := by
    intro α a ho ha
    exact (ends_left ha).ensures fun h m' hm => ⟨hm, fun h => nomatch ho.symm.trans h⟩
  have hstop : (Muxed.left Muxed.stop m).Ends fun h m' => Moves m h m' ∧ m'.state = .stopped :=
    ends_left (ends_stop m)
  cases o with
  | formatChanged format =>
    exact hmoves rfl ((ends_formatChanged format m).ensures fun h r hr => hr.moves hf)
  | addTrack format =>
    exact hmoves rfl ((ends_addTrack format m).ensures fun h r hr => hr.1 ▸ hr.2)
  | start => exact hmoves rfl ((ends_start m).ensures fun h r hr => hr.2)
  | write track data time flags =>
    exact hmoves rfl ((ends_write track data time flags m).ensures fun h r hr => hr.moves)
  | writeSample s => exact hmoves rfl ((ends_writeSample s m).ensures fun h r hr => hr.moves)
  | writeTimes log offset =>
    exact hmoves rfl ((ends_writeTimes log offset m).ensures fun h r hr => hr.moves)
  | stop | close => exact hstop.ensures fun h m' hm => ⟨hm.1, fun _ => hm.2⟩

/-- **Operations are moves**, and the container is stopped once one of them has ended its use. -/
theorem ends_operate (operations : List Operation) (hf : m.VideoFirst) :
    (operate operations m).Ends fun h m' =>
      Moves m h m' ∧ ((∃ o ∈ operations, o.finishes) → m'.state = .stopped) := by
  induction operations generalizing m with
  | nil =>
    exact Program.ensures_done.2 ⟨.none m, fun ⟨_, ho, _⟩ => absurd ho List.not_mem_nil⟩
  | cons o rest ih =>
    refine Program.ensures_bind.2 ((ends_perform o hf).ensures fun h m' ho => ?_)
    obtain ⟨hfirst, hstop⟩ := ho
    refine (ih (hfirst.videoFirst hf)).ensures fun k m'' hk => ?_
    obtain ⟨hrest, hlater⟩ := hk
    refine ⟨hfirst.append hrest, ?_⟩
    rintro ⟨o', ho', hfin⟩
    rcases List.mem_cons.1 ho' with rfl | ho'
    · exact hrest.stays_stopped (hstop hfin)
    · exact hlater ⟨o', ho', hfin⟩

/-! ## From the making of a container on -/

/-- A container as it is made. -/
def initial (path : Path) (container : Container) : Muxed := ⟨path, container, .idle, none, none⟩

/-- The marking of a turned recording. -/
def turning (rotate : Bool) : History :=
  if rotate then [⟨.muxer (.orientationHint 90), .ok ()⟩] else []

/-- What a use of a container begins with: the making of its writer, if that is not there, and the
marking of its file. -/
inductive Made (path : Path) (container : Container) (rotate : Bool) : History → Prop
  | given : Made path container rotate (turning rotate)
  | created {h : History} (hc : Cleared path h) :
      Made path container rotate
        (h ++ ⟨.muxer (.create path container), .ok ()⟩ :: turning rotate)

theorem Created.making {path : Path} {container : Container} {rotate : Bool}
    (hc : Created path container rotate h (.ok m)) :
    Made path container rotate h ∧ m = initial path container := by
  cases hc with
  | turned hr hc => subst hr; exact ⟨.created hc, rfl⟩
  | made hr hc => subst hr; exact ⟨.created hc, rfl⟩

theorem ends_make {σ : Type} (path : Path) (container : Container) (rotate : Bool) (s : σ) :
    (make path container rotate s).Ends fun h r => ∀ m, r.1 = .ok m →
      Made path container rotate h ∧ m = initial path container := by
  unfold make
  cases rotate with
  | true =>
    simp only [if_true, ask, Program.request, Action.ensures_bind, Action.ensures_attempt,
      Program.ensures_ask, Program.ensures_done, Exchange.call, forall_outcome, Option.map_some,
      Action.after_ok, Action.after_error, Action.ensures_pure, List.append_nil]
    exact ⟨fun f m hm => (by cases hm), fun _ m hm => ⟨.given, (Except.ok.inj hm).symm⟩⟩
  | false =>
    simp only [Bool.false_eq_true, if_false, Action.ensures_pure]
    exact fun m hm => ⟨.given, (Except.ok.inj hm).symm⟩

/-- A container that is made, in place of what is at its path or not, is as it is at first. -/
theorem ends_making (fresh : Bool) (path : Path) (container : Container) (rotate : Bool) :
    ((if fresh then create path container rotate else make path container rotate :
      Action Unit Muxed) ()).Ends fun h r => ∀ m, r.1 = .ok m →
        Made path container rotate h ∧ m = initial path container := by
  split
  · refine (ends_create path container rotate ()).ensures fun h r hr m hm => ?_
    exact (hm ▸ hr.2 : Created path container rotate h (.ok m)).making
  · exact ends_make path container rotate ()

/-- **The use of a container** is its making, and then moves. -/
theorem ends_use (fresh : Bool) (path : Path) (container : Container) (rotate : Bool)
    (operations : List Operation) :
    (use fresh path container rotate operations).Ends fun h r => ∀ m, r = .ok m →
      ∃ made done, h = made ++ done ∧ Made path container rotate made ∧
        Moves (initial path container) done m ∧
        ((∃ o ∈ operations, o.finishes) → m.state = .stopped) := by
  unfold use
  refine Program.ensures_bind.2 ((ends_making fresh path container rotate).ensures ?_)
  rintro made ⟨f | m, _⟩ hr
  · exact Program.ensures_done.2 fun m hm => nomatch hm
  obtain ⟨hmade, rfl⟩ := hr m rfl
  refine Program.ensures_bind.2 ((ends_operate operations fun _ => rfl).ensures ?_)
  rintro done m ⟨hmoves, hstop⟩
  refine Program.ensures_done.2 ?_
  rintro _ ⟨⟩
  exact ⟨made, done, by rw [List.append_nil], hmade, hmoves, hstop⟩

end Screencast.Muxed
