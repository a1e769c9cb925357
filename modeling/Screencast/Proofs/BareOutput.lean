import Screencast.Proofs.Course
import Screencast.Proofs.Files
import Screencast.Proofs.Paths

/-!
# The output of the bare stream

Where the bare stream of a session goes. A supplied output leaves the destination alone. A file is
emptied when it is opened, is written to in the loop only, and is flushed before its digest is
taken.

* `Raw.Target.of`: what a session passes the stream on to.
* `Session.Prepared.bare`: the output that is opened.
* `Session.file_of_drained`: the file of a recording that has ended well.
-/

namespace Screencast

theorem Sink.path?_of_face {sink : Sink} {target : Raw.Target} {path : Option Path} {closed : Bool}
    (hf : sink.face = .raw target path closed) : sink.path? = path := by
  cases sink with
  | muxed => cases hf
  | raw raw => exact (Sink.Face.raw.inj hf).2.1

/-- What may take the bare stream in place of the destination. -/
inductive Supply
  | stream
  | callback
  deriving DecidableEq

def Supply.target : Supply → Raw.Target
  | stream => .stream .supplied
  | callback => .callback

/-- What a session passes the bare stream on to. -/
def Raw.Target.of (supply : Option Supply) (d : Destination) : Raw.Target :=
  match supply, d with
  | some supply, _ => supply.target
  | none, .file path => .stream (.file path)
  | none, .standardOutput => .stream .standardOutput

/-- The output that is supplied to a session. -/
def Supply.raw (supply : Supply) : Raw := .ofTarget supply.target

/-- The file system can be relied on: the file at a path is read as it is, and has a name if it
could be created. -/
structure FileReliable (path : Path) (h : History) : Prop where
  readsBack : h.readsBack path none = true
  named : ⟨.disk (.create path), .ok ()⟩ ∈ h → path.named? ≠ none

namespace Session

variable {s s' : Session} {h : History} {supply : Option Supply}

/-- The opening of an output for the bare stream, and what it is from then on. -/
inductive BareOpened : Option Supply → Destination → History → Sink.Face → Prop
  | supplied (supply : Supply) (d : Destination) :
      BareOpened (some supply) d [] (.raw supply.target none false)
  | file (path : Path) :
      BareOpened none (.file path) [⟨.disk (.create path), .ok ()⟩]
        (.raw (.stream (.file path)) (some path) false)
  | standard (terminal : Bool) :
      BareOpened none .standardOutput [⟨.stream .rawTerminal, terminal⟩]
        (.raw (.stream .standardOutput) none false)

theorem Opened.bare {sink : Sink} (hc : s.settings.format.container? = none)
    (hs : s.output = supply.map Supply.raw) (ho : Opened s h (.ok sink, s')) :
    BareOpened supply s.settings.destination h sink.face := by
  generalize hr : ((.ok sink, s') : Outcome Sink × Session) = r at ho
  cases ho with
  | homeless _ _ _ hsome => rw [hc] at hsome; cases hsome
  | container _ _ hsome => rw [hc] at hsome; cases hsome
  | supplied raw _ hraw =>
    cases hr
    obtain _ | supply := supply
    · rw [hs] at hraw; cases hraw
    · obtain rfl : supply.raw = raw := Option.some.inj (hs.symm.trans hraw)
      exact .supplied supply _
  | @destination _ x _ hnone hopen =>
    obtain _ | supply := supply
    · generalize s.settings.destination = d at hopen ⊢
      cases hopen with
      | file => cases hr; exact .file _
      | refused => cases hr
      | standard terminal => cases hr; exact .standard terminal
    · rw [hs] at hnone; cases hnone

/-- A session has its output when it is ready, and has opened it last. -/
theorem Prepared.bare {r : Ready} (hc : s.settings.format.container? = none)
    (hs : s.output = supply.map Supply.raw) (hp : Prepared s h (.ok r, s')) :
    ∃ k opened, h = k ++ opened ∧ k.Within [.encoder, .display, .capture] ∧
      BareOpened supply s.settings.destination opened r.sink.face := by
  cases hp with
  | @ready look setUp bound opened _ _ _ _ _ e c _ _ _ hl he hcap ho =>
    refine ⟨look ++ setUp ++ bound, opened, rfl, ?_,
      Opened.bare (s := { s with encoder := e, capture := c }) hc hs ho⟩
    simp [hl.within.mono, he.within.mono, hcap.within.mono]

/-- An output that is not a file has no path, and is opened without the disk. -/
theorem BareOpened.pathless {d : Destination} {face : Sink.Face}
    (ho : BareOpened supply d h face) (hd : ∀ path, supply = none → d ≠ .file path) :
    ∃ target, face = .raw target none false ∧ h.Within [.stream] := by
  cases ho with
  | supplied supply => exact ⟨_, rfl, by simp⟩
  | file path => exact absurd rfl (hd path rfl)
  | standard => exact ⟨_, rfl, by simp [Exchange.party]⟩

theorem BareOpened.face_eq {d : Destination} {face : Sink.Face} (ho : BareOpened supply d h face) :
    ∃ path, face = .raw (.of supply d) path false := by
  cases ho <;> exact ⟨_, rfl⟩

/-- With a supplied output the set-up does not turn to the disk, whether it fails or not. -/
theorem Prepared.undisked {x : Outcome Ready × Session} {raw : Raw}
    (hc : s.settings.format.container? = none) (hs : s.output = some raw)
    (hp : Prepared s h x) : h.Within [.encoder, .display, .capture] := by
  have hopened : ∀ {e c k y}, Opened { s with encoder := e, capture := c } k y → k = [] := by
    intro e c k y ho
    have hnone : ({ s with encoder := e, capture := c } : Session).settings.format.container? =
        none := hc
    have hsome : ({ s with encoder := e, capture := c } : Session).output = some raw := hs
    cases ho with
    | homeless => rfl
    | container _ _ hm => rw [hnone] at hm; cases hm
    | supplied => rfl
    | destination _ hd => rw [hsome] at hd; cases hd
  refine hp.of_parts History.within_nil (fun _ _ hh hk => History.within_append.2 ⟨hh, hk⟩)
    (fun hl => hl.within.mono ?_) (fun he => he.within.mono ?_) (fun hc => hc.within.mono ?_)
    (fun ho => ?_) fun ha => ha.within.mono ?_
  case refine_4 =>
    rw [hopened ho]
    exact History.within_nil
  all_goals simp

variable {settings : Settings} {sink : Sink} {r : Ready} {t : Take} {seconds : Double}
  {verdict : Outcome Ending} {path : Path}

/-- A recording without a file of its own is concluded without the disk, and has no digest. -/
theorem Settled.pathless {x : Outcome Recording} (hp : sink.path? = none)
    (hs : Settled settings sink (totals sink r t seconds) verdict h x) :
    h.Within [.identity] ∧ ∀ recording, x = .ok recording → recording.checksum = none := by
  have hdigested : ∀ {k y}, Digested sink k y → k = [] ∧ y = .ok none := by
    intro k y hd
    cases hd with
    | nothing => exact ⟨rfl, rfl⟩
    | read _ _ hsome => rw [hp] at hsome; cases hsome
    | unread _ _ _ _ hsome => rw [hp] at hsome; cases hsome
  have hsaved : ∀ {d k y}, Saved settings sink d k y → k = [] := by
    intro d k y hd
    cases hd with
    | nowhere => rfl
    | written _ _ hsome => rw [hp] at hsome; cases hsome
    | refused _ _ _ _ _ hsome => rw [hp] at hsome; cases hsome
  cases hs with
  | failed => exact ⟨by simp, fun _ h => by cases h⟩
  | concluded _ hc =>
    cases hc with
    | undigested hd => cases (hdigested hd).2
    | unsaved _ hd hk =>
      exact ⟨by simp [(hdigested hd).1, hsaved hk, Exchange.party], fun _ h => by cases h⟩
    | done _ hd hk =>
      obtain ⟨rfl, hnone⟩ := hdigested hd
      cases hnone
      refine ⟨by simp [hsaved hk, Exchange.party], fun recording h => ?_⟩
      cases h
      rfl

/-- The digest of a recording that has ended well is that of what its file holds. -/
theorem Settled.digest {recording : Recording} {content : Bytes} {before after : History}
    (hp : sink.path? = some path) (hname : path.named? ≠ none)
    (hfile : before.file? path = some ⟨content, []⟩)
    (hread : (before ++ h ++ after).readsBack path none = true)
    (hs : Settled settings sink (totals sink r t seconds) verdict h (.ok recording)) :
    h.fileAfter path (some ⟨content, []⟩) = some ⟨content, []⟩ ∧
      recording.checksum = some (hexText (Sha256.digest content)) := by
  cases hs with
  | concluded _ hc =>
  cases hc with
  | @done k l checksum identity hd hsave =>
  cases hd with
  | nothing hnone => rw [hp] at hnone; cases hnone
  | read told found hsome =>
    obtain rfl := Option.some.inj (hp.symm.trans hsome)
    have hcontent : found = content := by
      rw [List.append_assoc] at hread
      have hone := History.readsBack_append hread
      rw [← History.file?, hfile] at hone
      simpa [Exchange.readsBack] using hone
    refine ⟨?_, by rw [hcontent]; rfl⟩
    -- the description is saved at a path of its own, so the file keeps what it holds
    have hsaved : History.fileAfter path (some ⟨content, []⟩) l = some ⟨content, []⟩ := by
      cases hsave with
      | nowhere => rfl
      | written told _ hsome =>
        obtain rfl := Option.some.inj (hp.symm.trans hsome)
        exact if_neg (Description.pathFor_ne hname)
    exact hsaved

theorem Stamped.bare {log : FrameTimes.Log} {x : Outcome Unit × Sink} (hk : sink.party = .stream)
    (hs : Stamped log sink h x) : h = [] := by
  cases hs with
  | unkept => rfl
  | kept _ _ hkeeps =>
    cases sink with
    | muxed => cases hk
    | raw => cases hkeeps

/-- An open file is flushed in the end. -/
theorem GivenBack.flushed (hf : sink.face = .raw (.stream (.file path)) (some path) false)
    (hb : GivenBack s sink h (.ok (), s')) :
    ∃ k l : History, h = k ++ ⟨.stream (.flush (.file path)), .ok ()⟩ :: l ∧
      k.Within [.capture, .encoder] ∧ l.Within [.encoder] := by
  obtain @⟨stop, close, _, _, e, _, hs, hc⟩ := hb
  obtain _ | ⟨target, place, written, closed⟩ := sink
  · cases hf
  obtain ⟨rfl, rfl, rfl⟩ := Sink.Face.raw.inj hf
  refine ⟨s.capture.closing ++ stop, e.freeing, ?_, ?_, Encoder.freeing_within⟩
  · cases hc with
    | raw hc =>
      cases hc with
      | again hn => cases hn
      | callback _ hn => cases hn
      | flushed told _ ht =>
        cases ht
        rw [List.append_assoc]
        rfl
  · simp [Capture.closing_within.mono, hs.within.mono]

/-- **The file of a recording that has ended well** holds what was written to it in the loop, and
the digest is of that. -/
theorem file_of_drained {setUp loop times back rest last : History} {s'' : Session}
    {looped : Outcome Ending} {timed closed : Outcome Unit} {recording : Recording}
    {started nanos : Int64} (hc : s.settings.format.container? = none) (hs : s.output = none)
    (hd : s.settings.destination = .file path) (hp : Prepared s setUp (.ok r, s'))
    (hl : (s'.taking r).Looped (s'.deadline started) loop (some (looped, t)))
    (ht : Stamped t.times t.sink times (timed, sink))
    (hb : GivenBack (s'.drained t) sink back (closed, s''))
    (hset : Settled settings sink (totals sink r t seconds) (Session.verdict looped timed closed)
      rest (.ok recording)) (hlast : last.Within [.watcher])
    (hrel : FileReliable path (lead setUp started ++ loop ++ [Take.clocked nanos] ++
      entered .draining :: (times ++ back ++ rest ++ last))) :
    (lead setUp started ++ loop ++ [Take.clocked nanos] ++
      entered .draining :: (times ++ back ++ rest ++ last)).file? path =
        some ⟨loop.taken (.file path), []⟩ ∧
      recording.checksum = some (hexText (Sha256.digest (loop.taken (.file path)))) := by
  have hnone : s.output = (none : Option Supply).map Supply.raw := hs
  obtain ⟨k, opened, rfl, hk, hopen⟩ := hp.bare hc hnone
  rw [hd] at hopen
  generalize hface : r.sink.face = face at hopen
  cases hopen
  obtain ⟨-, -, rfl⟩ := hset.ended
  have hloop : t.sink.face = .raw (.stream (.file path)) (some path) false :=
    hl.face_eq.trans hface
  have hsink : sink.face = .raw (.stream (.file path)) (some path) false :=
    ht.face_eq.trans hloop
  obtain rfl := ht.bare (by rw [Sink.party, hloop]; rfl)
  obtain ⟨k', l', rfl, hk', hl'⟩ := hb.flushed hsink
  have hname : path.named? ≠ none := hrel.named (by simp [lead])
  -- from the creation of the file to its flush nothing turns to the disk
  have hlooped := hl.within
  have hparty : (s'.taking r).sink.party = .stream := by
    change r.sink.party = .stream
    rw [Sink.party, hface]
    rfl
  rw [Take.loopParties, hparty] at hlooped
  have hwithin : History.Within
      [.watcher, .clock, .encoder, .display, .capture, .stream, .signal]
      ([entered .capturing, Take.clocked started] ++ loop ++
        [Take.clocked nanos, entered .draining] ++ k') := by
    simp [hlooped.mono, hk'.mono, Exchange.party]
  obtain ⟨f, hfile, hwritten⟩ := hwithin.fileAfter_open path ⟨[], []⟩ (by simp)
  have htaken : f.written = loop.taken (.file path) := by
    have hquiet : History.Quiet [entered .capturing, Take.clocked started] := by
      simp [Exchange.carries]
    have hquiet' : History.Quiet [Take.clocked nanos, entered .draining] := by
      simp [Exchange.carries]
    rw [hwritten, History.taken_append, History.taken_append, History.taken_append,
      hquiet.taken_eq_nil, hquiet'.taken_eq_nil,
      (hk'.quiet (by simp) (by simp)).taken_eq_nil, List.append_nil, List.append_nil]
    rfl
  have hcreated : History.file? path (entered .configuring :: k ++
      [⟨.disk (.create path), .ok ()⟩]) = some ⟨[], []⟩ := by
    rw [History.file?_append]
    exact if_pos rfl
  have hflushed : History.file? path (entered .configuring :: k ++
      [⟨.disk (.create path), .ok ()⟩] ++ ([entered .capturing, Take.clocked started] ++ loop ++
        [Take.clocked nanos, entered .draining] ++ k') ++
          ([⟨.stream (.flush (.file path)), .ok ()⟩] ++ l')) =
            some ⟨loop.taken (.file path), []⟩ := by
    rw [History.file?_append, History.file?_append, hcreated, hfile, History.fileAfter_append,
      hl'.fileAfter_eq (by simp) (by simp), ← htaken]
    exact if_pos rfl
  -- the run, cut behind the creation and behind the flush of the file
  have hsplit : lead (k ++ [⟨.disk (.create path), .ok ()⟩]) started ++ loop ++
      [Take.clocked nanos] ++ entered .draining ::
        ([] ++ (k' ++ ⟨.stream (.flush (.file path)), .ok ()⟩ :: l') ++ rest ++ last) =
      entered .configuring :: k ++ [⟨.disk (.create path), .ok ()⟩] ++
        ([entered .capturing, Take.clocked started] ++ loop ++
          [Take.clocked nanos, entered .draining] ++ k') ++
          ([⟨.stream (.flush (.file path)), .ok ()⟩] ++ l') ++ rest ++ last := by
    simp [lead]
  have hread := hrel.readsBack
  rw [hsplit] at hread ⊢
  obtain ⟨hkept, hdigest⟩ := hset.digest (Sink.path?_of_face hsink) hname hflushed hread
  refine ⟨?_, hdigest⟩
  rw [History.file?_append, History.file?_append, hflushed, hkept,
    hlast.fileAfter_eq (by simp) (by simp)]

end Session

end Screencast
