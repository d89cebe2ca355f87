import EvmTrace.Proofs.Comparisons

/-!
# Reports on streams that break

A report gets to a stream in pieces, and of each piece a stream takes as many bytes at a time as it
likes. Neither can be seen in the end: a stream that breaks after some bytes holds that beginning of
the report, and one warning tells that the rest is lost. A stream that takes all of the report is
flushed behind it, and a warning tells if that fails.
-/
namespace EvmTrace

namespace Stream

/-! ## Bytes taken a few at a time -/

/-- Has room for so many more bytes. -/
def HasRoom (s : Stream) (k : Nat) : Prop := ∀ limit ∈ s.limit, k ≤ limit.1

/-- The stream after a call in which it took the first `k` of some bytes. -/
def accept (s : Stream) (k : Nat) (b : Bytes) : Stream :=
  { s with
    content := s.content ++ b.take k
    limit := s.limit.map fun limit => (limit.1 - k, limit.2) }

/-- Bytes are offered until all of them are taken or the stream fails. It takes at least one of them
at a time while it has room. A call that is interrupted is made again. -/
inductive Offers : Stream → Bytes → Option SinkError × Stream → Prop
  | done (s : Stream) : Offers s [] (none, s)
  | takes {s : Stream} {b : Bytes} {k : Nat} {r : Option SinkError × Stream} (hpos : 0 < k)
      (hlength : k ≤ b.length) (hroom : s.HasRoom k) (hrest : Offers (s.accept k b) (b.drop k) r) :
      Offers s b r
  | interrupted {s : Stream} {b : Bytes} {r : Option SinkError × Stream} (hb : b ≠ [])
      (hagain : Offers s b r) : Offers s b r
  | fails {s : Stream} {b : Bytes} {e : SinkError} (hb : b ≠ []) (hlimit : s.limit = some (0, e))
      (he : e ≠ .interrupted) : Offers s b (some e, s)

/-- Pieces are offered one after the other up to the first failure. Behind the last one the stream
is flushed. -/
inductive Feeds : Stream → List Bytes → Option SinkError × Stream → Prop
  | flushes (s : Stream) : Feeds s [] s.flush
  | next {s t : Stream} {piece : Bytes} {pieces : List Bytes} {r : Option SinkError × Stream}
      (hpiece : Offers s piece (none, t)) (hrest : Feeds t pieces r) : Feeds s (piece :: pieces) r
  | stops {s t : Stream} {piece : Bytes} {pieces : List Bytes} {e : SinkError}
      (hpiece : Offers s piece (some e, t)) : Feeds s (piece :: pieces) (some e, t)

variable {s t : Stream} {b : Bytes} {e : SinkError} {k : Nat} {r : Option SinkError × Stream}

/-- What is left of some bytes goes on where the stream is. -/
theorem write_accept (hlength : k ≤ b.length) (hroom : s.HasRoom k) :
    (s.accept k b).write (b.drop k) = s.write b := by
  obtain ⟨content, limit, flushes⟩ := s
  cases limit with
  | none => simp [accept, write_unlimited]
  | some limit =>
    obtain ⟨room, e⟩ := limit
    have hk : k ≤ room := hroom (room, e) rfl
    have hfits : room - k < b.length - k ↔ room < b.length := by omega
    have hleft : room - k - (b.length - k) = room - b.length := by omega
    have htake : b.take k ++ (b.drop k).take (room - k) = b.take room := by
      rw [← List.take_add, Nat.add_sub_cancel' hk]
    simp [accept, write_limited, hfits, hleft, htake]

theorem write_of_full (hb : b ≠ []) (hlimit : s.limit = some (0, e)) :
    s.write b = (some e, s) := by
  obtain ⟨content, limit, flushes⟩ := s
  obtain rfl : limit = some (0, e) := hlimit
  simp [write_limited, List.length_pos_of_ne_nil hb]

/-- However many bytes it takes at a time, a stream comes to what it comes to at once. -/
theorem Offers.eq_write (h : Offers s b r) : r = s.write b := by
  induction h with
  | done s => exact (write_nil s).symm
  | takes _ hlength hroom _ ih => rw [ih, write_accept hlength hroom]
  | interrupted _ _ ih => exact ih
  | fails hb hlimit _ => exact (write_of_full hb hlimit).symm

/-- Fails with an error that lasts, if it does fail. -/
def BreaksForGood (s : Stream) : Prop := ∀ limit ∈ s.limit, limit.2 ≠ .interrupted

theorem offers_of_hasRoom (hb : b ≠ []) (hroom : s.HasRoom b.length) :
    Offers s b (none, s.accept b.length b) := by
  have hdone : Offers (s.accept b.length b) (b.drop b.length) (none, s.accept b.length b) := by
    rw [List.drop_length]
    exact .done _
  exact .takes (List.length_pos_of_ne_nil hb) (Nat.le_refl _) hroom hdone

theorem exists_offers_of_lt {room : Nat} (hlimit : s.limit = some (room, e))
    (hlt : room < b.length) (he : e ≠ .interrupted) : ∃ r, Offers s b r := by
  by_cases hzero : room = 0
  · subst hzero
    exact ⟨_, .fails (List.ne_nil_of_length_pos hlt) hlimit he⟩
  · -- It takes as much as goes in, and fails on the rest.
    have hroom : s.HasRoom room := by simp [HasRoom, hlimit]
    have hrest : b.drop room ≠ [] := by simpa using hlt
    have hfull : (s.accept room b).limit = some (0, e) := by simp [accept, hlimit]
    exact ⟨_, .takes (Nat.pos_of_ne_zero hzero) (Nat.le_of_lt hlt) hroom (.fails hrest hfull he)⟩

theorem exists_offers (hs : s.BreaksForGood) (b : Bytes) : ∃ r, Offers s b r := by
  by_cases hb : b = []
  · subst hb
    exact ⟨_, .done s⟩
  by_cases hroom : s.HasRoom b.length
  · exact ⟨_, offers_of_hasRoom hb hroom⟩
  · obtain ⟨⟨room, e⟩, hlimit, hlt⟩ : ∃ limit ∈ s.limit, limit.1 < b.length := by
      simpa [HasRoom] using hroom
    exact exists_offers_of_lt hlimit hlt (hs _ hlimit)

theorem offers_iff (hs : s.BreaksForGood) : Offers s b r ↔ r = s.write b := by
  constructor
  · exact Offers.eq_write
  · rintro rfl
    obtain ⟨r, hr⟩ := exists_offers hs b
    rwa [← hr.eq_write]

theorem breaksForGood_write (hs : s.BreaksForGood) (b : Bytes) :
    (s.write b).2.BreaksForGood := by
  obtain ⟨content, limit, flushes⟩ := s
  cases limit with
  | none => exact hs
  | some limit =>
    obtain ⟨room, e⟩ := limit
    have he : e ≠ .interrupted := hs (room, e) rfl
    rw [write_limited]
    simpa [BreaksForGood] using he

theorem Feeds.eq_send {pieces : List Bytes} (h : Feeds s pieces r) : r = s.send pieces := by
  induction h with
  | flushes s => rfl
  | next hpiece _ ih =>
    rw [send_cons, ← hpiece.eq_write]
    exact ih
  | stops hpiece => rw [send_cons, ← hpiece.eq_write]

theorem feeds_send (hs : s.BreaksForGood) (pieces : List Bytes) :
    Feeds s pieces (s.send pieces) := by
  induction pieces generalizing s with
  | nil => exact .flushes s
  | cons piece pieces ih =>
    have hpiece := (offers_iff hs).mpr (rfl : s.write piece = s.write piece)
    have hrest := ih (breaksForGood_write hs piece)
    rw [send_cons]
    split
    · next t hwrite =>
      rw [hwrite] at hpiece hrest
      exact .next hpiece hrest
    · next e t hwrite =>
      rw [hwrite] at hpiece
      exact .stops hpiece

theorem feeds_iff (hs : s.BreaksForGood) {pieces : List Bytes} :
    Feeds s pieces r ↔ r = s.send pieces := by
  constructor
  · exact Feeds.eq_send
  · rintro rfl
    exact feeds_send hs pieces

end Stream

namespace GenesisReport

/-- What a report comes to that gets to a stream in these pieces. -/
def Reports (s : Stream) (pieces : List Bytes) (outcome : Stream × List Diagnostic) : Prop :=
  ∃ failure stream,
    s.Feeds pieces (failure, stream) ∧ outcome = (stream, failure.toList.map .reportFailed)

variable {actual expected : Header} {pieces : List Bytes}

/-- Whichever way a report is cut, it is sent in this way. -/
theorem write_eq (hpieces : pieces.flatten = report actual expected) (s : Stream) :
    write actual expected s =
      ((s.send pieces).2, (s.send pieces).1.toList.map .reportFailed) := by
  have hsend : s.send ((lines actual expected).map (· ++ [10])) = s.send pieces :=
    s.send_congr (by rw [hpieces, report_eq, List.flatMap_def])
  rw [write, hsend]
  rcases s.send pieces with ⟨failure, t⟩
  cases failure with
  | none => rfl
  | some e => rfl

theorem reports_iff {s : Stream} (hs : s.BreaksForGood)
    (hpieces : pieces.flatten = report actual expected) (outcome : Stream × List Diagnostic) :
    Reports s pieces outcome ↔ outcome = write actual expected s := by
  rw [write_eq hpieces]
  constructor
  · rintro ⟨failure, stream, hfeeds, rfl⟩
    rw [← (Stream.feeds_iff hs).mp hfeeds]
  · rintro rfl
    exact ⟨_, _, (Stream.feeds_iff hs).mpr rfl, rfl⟩

/-- What a report comes to on a stream that takes `n` bytes in all. -/
theorem write_limited (actual expected : Header) (n : Nat) (e : SinkError)
    (flushes : List (Option SinkError)) :
    let whole := report actual expected
    write actual expected ⟨[], some (n, e), flushes⟩ =
      (⟨whole.take n, some (n - whole.length, e),
          if n < whole.length then flushes else flushes.tail⟩,
        (if n < whole.length then some e else flushes.head?.join).toList.map .reportFailed) := by
  rw [write_eq List.flatten_singleton, Stream.send_limited, List.flatten_singleton, List.nil_append]

/-- A stream that takes `n` bytes in all gets the beginning of the report that a sound one gets, and
nothing behind it. If something is missing, one warning tells so and the stream is not flushed. If
nothing is missing, it is flushed once behind the last line, and one warning tells if this fails;
nothing is told if it succeeds. So it is at every level of verbosity. It makes no difference into
which pieces the report is cut, nor how many bytes the stream takes at a time. A write that is
interrupted is not a break: it is made again. -/
theorem broken_stream_truncates (actual expected : Header) (n : Nat) (e : SinkError)
    (flushes : List (Option SinkError)) (he : e ≠ .interrupted) :
    let whole := report actual expected
    let sound := Stream.empty none
    let broken : Stream := ⟨[], some (n, e), flushes⟩
    let outcome := write actual expected broken
    let failure := if n < whole.length then some e else flushes.head?.join
    (write actual expected sound).2 = [] ∧
      outcome.1.content = whole.take (min n whole.length) ∧
      outcome.1.flushes = (if n < whole.length then flushes else flushes.tail) ∧
      outcome.2 = failure.toList.map .reportFailed ∧
      (broken.flush.1 = none →
        outcome.2 = if n < whole.length then [.reportFailed e] else []) ∧
      (∀ v, Diagnostic.told v outcome.2 = outcome.2) ∧
      (∀ note ∈ outcome.2, note.severity = .warn) ∧
      ∀ pieces : List Bytes, pieces.flatten = whole → ∀ result,
        (Reports sound pieces result ↔ result = write actual expected sound) ∧
          (Reports broken pieces result ↔ result = outcome) := by
  intro whole sound broken outcome failure
  have houtcome : outcome = (_, failure.toList.map .reportFailed) :=
    write_limited actual expected n e flushes
  have hnotes : outcome.2 = failure.toList.map .reportFailed := by rw [houtcome]
  have hsound : sound.BreaksForGood := by simp [sound, Stream.BreaksForGood, Stream.empty]
  have hbroken : broken.BreaksForGood := by simpa [broken, Stream.BreaksForGood] using he
  refine ⟨?_, ?_, ?_, hnotes, fun hflush => ?_, fun v => ?_, ?_, fun pieces hpieces result => ?_⟩
  · rw [write_eq List.flatten_singleton]
    rfl
  · rw [houtcome]
    exact List.take_eq_take_min
  · rw [houtcome]
  · have hlast : flushes.head?.join = none := hflush
    simp only [hnotes, failure, hlast]
    split <;> rfl
  · rw [hnotes]
    cases failure with
    | none => rfl
    | some cause => rfl
  · rw [hnotes]
    simp only [List.mem_map]
    rintro _ ⟨cause, -, rfl⟩
    rfl
  · exact ⟨reports_iff hsound hpieces result, reports_iff hbroken hpieces result⟩

/-- A header with nothing in it. -/
def blankHeader : Header :=
  ⟨.replicate 32 0, .replicate 32 0, .replicate 20 0, .replicate 32 0, .replicate 32 0,
    .replicate 32 0, .replicate 256 0, 0, 0, 0, 0, 0, [], .replicate 32 0, 0, none,
    .replicate 32 0⟩

theorem broken_stream_truncates_inFirstLine :
    SinkError.failed "closed" ≠ .interrupted ∧
      let s := Stream.empty (some (11, .failed "closed"))
      let outcome := write blankHeader blankHeader s
      outcome.1.content = Bytes.ofText "There is a " ∧
        outcome.2 = [.reportFailed (.failed "closed")] ∧
        Reports s [report blankHeader blankHeader] outcome := by
  have he : SinkError.failed "closed" ≠ .interrupted := by decide
  obtain ⟨-, hcontent, -, -, htold, -, -, hpieces⟩ :=
    broken_stream_truncates blankHeader blankHeader 11 (.failed "closed") [] he
  have hstart : (report blankHeader blankHeader).take 12 = Bytes.ofText "There is a m" := by
    rw [report_eq]
    rfl
  have hlength : 11 < (report blankHeader blankHeader).length := by
    have htwelve := congrArg List.length hstart
    rw [List.length_take] at htwelve
    have hvalue : (Bytes.ofText "There is a m").length = 12 := by decide
    omega
  refine ⟨he, ?_, ?_, (hpieces _ List.flatten_singleton _).2.mpr rfl⟩
  · refine hcontent.trans ?_
    rw [Nat.min_eq_left (Nat.le_of_lt hlength)]
    have heleven := congrArg (List.take 11) hstart
    rwa [List.take_take] at heleven
  · exact (htold rfl).trans (if_pos hlength)

end GenesisReport
end EvmTrace
