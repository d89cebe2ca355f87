import EvmTrace.Instrumentation
import EvmTrace.Proofs.Recording
import EvmTrace.Proofs.SavedSettings

/-!
# What is handed out once

A configuration has one opening line and one pair of buffers. Whatever was asked of it so far, the
next answer only depends on whether such a thing was asked for before.
-/
namespace EvmTrace

/-- The line that opens the trace of some settings. -/
def Settings.openingLine (s : Settings) : Bytes :=
  Bytes.ofText ("FIRE INIT " ++ Protocol.version ++ " " ++ s.chainVariant ++ " " ++
    s.nodeVersion ++ "\n")

theorem Event.line_announcement (s : Settings) :
    (announcement Protocol.version s.chainVariant s.nodeVersion).line = s.openingLine := by
  have hmarker : Bytes.ofText ("FIRE INIT " ++ Protocol.version) =
      Bytes.ofText Protocol.marker ++ 32 :: (Bytes.ofText "INIT" ++ 32 ::
        Bytes.ofText Protocol.version) := by decide
  have hspace : Bytes.ofText " " = [32] := rfl
  have hend : Bytes.ofText "\n" = [10] := rfl
  simp only [Settings.openingLine, Bytes.ofText_append _ "\n", Bytes.ofText_append _ s.nodeVersion,
    Bytes.ofText_append _ " ", Bytes.ofText_append _ s.chainVariant, hmarker, hspace, hend, line,
    Line.ofFields, Line.ofEncoded, kind, fields, List.map_cons, List.map_nil, Field.encode,
    List.flatMap_cons, List.flatMap_nil, List.append_assoc, List.cons_append, List.nil_append,
    List.append_nil]

namespace Instrumentation

/-- What a node asks its configuration for. -/
inductive Request
  | syncTracer (files : Files) (sink : Sink)
  | speculativeDraft (buffer : Buffer)
  | takeBuffers
  | setBehind (isBehind : Bool)
  /-- Reads any of the values. -/
  | read

namespace Request

def isSyncTracer : Request → Bool
  | syncTracer .. => true
  | _ => false

def isTakeBuffers : Request → Bool
  | takeBuffers => true
  | _ => false

def behind? : Request → Option Bool
  | setBehind isBehind => some isBehind
  | _ => none

end Request

/-- The configuration behind a request. -/
def afterRequest (i : Instrumentation) : Request → Instrumentation
  | .syncTracer files sink => (i.syncTracer files sink).2
  | .takeBuffers => i.takeBuffers.2
  | .setBehind isBehind => i.setBehind isBehind
  | .speculativeDraft _ | .read => i

def afterRequests (i : Instrumentation) (requests : List Request) : Instrumentation :=
  requests.foldl afterRequest i

theorem afterRequest_eq (i : Instrumentation) (request : Request) :
    i.afterRequest request =
      { i with
        announced := i.announced || i.records && request.isSyncTracer
        buffers := if request.isTakeBuffers then none else i.buffers
        isBehind := request.behind?.getD i.isBehind } := by
  cases request with
  | syncTracer files sink =>
    obtain ⟨settings, genesis, provenance, buffers, isBehind, announced⟩ := i
    cases announced with
    | true => simp [afterRequest, syncTracer, Request.isSyncTracer, Request.isTakeBuffers,
        Request.behind?]
    | false =>
      simp only [afterRequest, syncTracer, Request.isSyncTracer, Request.isTakeBuffers,
        Request.behind?]
      split
      · next h => simp_all
      · next h => simp_all
  | speculativeDraft buffer =>
    simp [afterRequest, Request.isSyncTracer, Request.isTakeBuffers, Request.behind?]
  | takeBuffers =>
    simp [afterRequest, takeBuffers, Request.isSyncTracer, Request.isTakeBuffers, Request.behind?]
  | setBehind isBehind =>
    simp [afterRequest, setBehind, Request.isSyncTracer, Request.isTakeBuffers, Request.behind?]
  | read => simp [afterRequest, Request.isSyncTracer, Request.isTakeBuffers, Request.behind?]

/-- Whether the opening line was written, the buffers and how far the node is: nothing else ever
changes, and these only by what was asked for so far. -/
theorem afterRequests_eq (i : Instrumentation) (requests : List Request) :
    i.afterRequests requests =
      { i with
        announced := i.announced || i.records && requests.any Request.isSyncTracer
        buffers := if requests.any Request.isTakeBuffers then none else i.buffers
        isBehind := (requests.filterMap Request.behind?).getLast?.getD i.isBehind } := by
  induction requests generalizing i with
  | nil => simp [afterRequests]
  | cons request requests ih =>
    have hrest : i.afterRequests (request :: requests) =
        (i.afterRequest request).afterRequests requests := rfl
    have hbehind : (request :: requests).filterMap Request.behind? =
        request.behind?.toList ++ requests.filterMap Request.behind? := by
      cases request <;> rfl
    rw [hrest, ih, afterRequest_eq, hbehind, List.any_cons, List.any_cons,
      List.getLast?_append]
    cases request.isTakeBuffers <;> cases request.behind? <;>
      simp [records, Bool.and_or_distrib_left, Bool.or_assoc]

theorem settings_afterRequests (i : Instrumentation) (requests : List Request) :
    (i.afterRequests requests).settings = i.settings := by rw [afterRequests_eq]

/-- The next tracer is the first that records if none was asked for so far. -/
theorem isFirst_afterRequests {i : Instrumentation} (h : i.announced = false)
    (requests : List Request) :
    ((i.afterRequests requests).records && !(i.afterRequests requests).announced) =
      (i.records && !requests.any Request.isSyncTracer) := by
  have hrecords : (i.afterRequests requests).records = i.records := by
    simp only [records, settings_afterRequests]
  rw [hrecords, afterRequests_eq, h]
  cases i.records <;> rfl

/-- A tracer over an empty sink that accepts every write holds the opening line if it is the first
one that records, and nothing otherwise. -/
theorem syncTracer_of_acceptsAll (i : Instrumentation) (files : Files) {sink : Sink}
    (hempty : sink.accepted = []) (haccepts : sink.AcceptsAll) :
    let o := (i.syncTracer files sink).1
    o.tracer.recorder = .fresh i.records i.settings.blockProgress ∧ o.files = files ∧
      o.tracer.content = if i.records && !i.announced then i.settings.openingLine else [] := by
  intro o
  cases hfirst : i.records && !i.announced with
  | false =>
    have ho : o = ⟨.direct (.fresh i.records i.settings.blockProgress)
        ⟨sink, Writer.defaultFallback⟩, files, []⟩ := by
      simp only [o, syncTracer, hfirst, Bool.false_eq_true, if_false]
    rw [ho]
    exact ⟨rfl, rfl, hempty⟩
  | true =>
    set r := Recorder.fresh i.records i.settings.blockProgress with hr
    set t := Tracer.direct r ⟨sink, Writer.defaultFallback⟩
    set step := r.announce i.settings.nodeVersion Protocol.version i.settings.chainVariant
    have ho : o = t.take files step := by
      simp only [o, syncTracer, hfirst, if_true]
      rfl
    have htrace : step.trace.bytes = i.settings.openingLine := by
      rw [← Event.line_announcement]
      exact List.append_nil _
    obtain ⟨-, hfiles, hcontent⟩ := Tracer.take_of_acceptsAll (t := t) haccepts files step
    rw [ho, hcontent, htrace]
    refine ⟨Tracer.recorder_take t files step, hfiles, ?_⟩
    rw [show t.content = [] from hempty, List.nil_append, if_pos rfl]

theorem setUp_eq_ok {files : Files} {s : Settings} {known : Option Json} {i : Instrumentation}
    {notes : List Diagnostic} (h : setUp files s known = (.ok i, notes)) :
    ∃ genesis provenance, findGenesis files s known = .ok (genesis, provenance) ∧
      i = ⟨s, genesis, provenance, if s.enabled then some .allocate else none, false, false⟩ := by
  unfold setUp at h
  split at h
  · cases h
  · next genesis provenance hfound =>
    exact ⟨genesis, provenance, hfound, (Except.ok.inj (Prod.mk.inj h).1).symm⟩

/-- Behind any requests, a tracer over an empty sink holds the opening line if both switches are on
and no such tracer was asked for before, and otherwise it holds nothing; with a switch off it does
not record either. A draft is always empty. The buffers are given out if the configuration is
enabled and they were not asked for before. What was set up is never changed, and a genesis that
the node knows makes the set up independent of all files. -/
theorem resources_handed_out_once {files : Files} {s : Settings} {known : Option Json}
    {i : Instrumentation} {notes : List Diagnostic} (h : setUp files s known = (.ok i, notes)) :
    (∀ requests : List Request,
      let now := i.afterRequests requests
      let records := s.enabled && s.syncInstrumentation
      (∀ (files : Files) (sink : Sink), sink.accepted = [] → sink.AcceptsAll →
        let o := (now.syncTracer files sink).1
        o.tracer.recorder = .fresh records s.blockProgress ∧ o.files = files ∧
          o.tracer.content =
            if records && !requests.any Request.isSyncTracer then s.openingLine else []) ∧
      (∀ b : Buffer, now.speculativeDraft b = ⟨.fresh s.enabled false, [], b.capacity⟩) ∧
      now.takeBuffers.1 =
        (if s.enabled && !requests.any Request.isTakeBuffers then some .allocate else none) ∧
      now.settings = s ∧ now.genesis = i.genesis ∧ now.provenance = i.provenance ∧
      now.requireGenesis = i.requireGenesis ∧
      now.isBehind = (requests.filterMap Request.behind?).getLast?.getD false) ∧
    ∀ genesis, known = some genesis →
      i.genesis = some genesis ∧ i.provenance = .chainFlag ∧
      ∀ others : Files, setUp others s known = (.ok i, notes) := by
  obtain ⟨genesis, provenance, hfound, hi⟩ := setUp_eq_ok h
  refine ⟨fun requests => ?_, fun given hgiven => ?_⟩
  · intro now records
    have hnow : now = _ := i.afterRequests_eq requests
    have hsettings : now.settings = s := by rw [hnow, hi]
    have hrecords : i.records = records := by rw [hi]; rfl
    refine ⟨fun files sink hempty haccepts => ?_, fun b => ?_, ?_, hsettings, ?_, ?_, ?_, ?_⟩
    · obtain ⟨hrecorder, hfiles, hcontent⟩ :=
        now.syncTracer_of_acceptsAll files hempty haccepts
      rw [isFirst_afterRequests (by rw [hi]), hrecords, hsettings] at hcontent
      rw [Instrumentation.records, hsettings] at hrecorder
      exact ⟨hrecorder, hfiles, hcontent⟩
    · simp only [speculativeDraft, hsettings]
      rfl
    · simp only [takeBuffers, hnow, hi]
      cases requests.any Request.isTakeBuffers <;> simp
    · rw [hnow]
    · rw [hnow]
    · rw [hnow]
      rfl
    · rw [hnow, hi]
  · subst hgiven
    obtain ⟨rfl, rfl⟩ := Prod.mk.inj (Except.ok.inj hfound)
    exact ⟨by rw [hi], by rw [hi], fun others => h⟩

/-- Both switches are on, and the genesis file does not exist. -/
def sampleSettings : Settings :=
  { Settings.default with
    enabled := true
    genesisFile := some "missing"
    nodeVersion := "1.10.8" }

theorem resources_handed_out_once_missingFile :
    let requests : List Request := [.speculativeDraft ⟨[70, 73], 8⟩, .syncTracer ⟨[]⟩ .accepting,
      .takeBuffers, .setBehind true, .read]
    ∃ i notes, setUp ⟨[]⟩ sampleSettings (some .null) = (.ok i, notes) ∧
      (i.syncTracer ⟨[]⟩ .accepting).1.tracer.content =
        Bytes.ofText "FIRE INIT 2.2 geth 1.10.8\n" ∧
      ((i.afterRequests requests).syncTracer ⟨[]⟩ .accepting).1.tracer.content = [] ∧
      i.takeBuffers.1 = some .allocate ∧ (i.afterRequests requests).takeBuffers.1 = none ∧
      (i.afterRequests requests).isBehind = true := by
  intro requests
  have hsetUp : setUp ⟨[]⟩ sampleSettings (some .null) = (.ok _, _) := rfl
  obtain ⟨hbehind, -⟩ := resources_handed_out_once hsetUp
  obtain ⟨hfirst, -, hbuffers, -⟩ := hbehind []
  obtain ⟨hlater, -, hgone, -, -, -, -, hset⟩ := hbehind requests
  refine ⟨_, _, hsetUp, ?_, ?_, hbuffers, hgone, hset⟩
  · exact (hfirst ⟨[]⟩ .accepting rfl Sink.acceptsAll_accepting).2.2
  · exact (hlater ⟨[]⟩ .accepting rfl Sink.acceptsAll_accepting).2.2

end Instrumentation
end EvmTrace
