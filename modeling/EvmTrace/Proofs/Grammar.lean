import EvmTrace.Proofs.Rendering
import EvmTrace.Proofs.Results

/-!
# The grammar of JSON

What a JSON text looks like, apart from any reader: blanks wherever they may stand, the pieces that
texts are spelled with, and numbers by their parts. Reading and passing over follow it, whatever
stands behind a value.
-/
namespace EvmTrace.Json

/-! ## Texts -/

namespace Text

/-- A byte that stands for itself, or an escape. -/
inductive Piece
  | byte (b : UInt8) (h : 32 ≤ b ∧ b ≠ 34 ∧ b ≠ 92)
  | letter (c b : UInt8) (h : escaped? c = some b)
  /-- Four digits of any code unit, that of half a character included. -/
  | unit (a b c d : UInt8) (n : Nat) (h : Hex.toNat? [a, b, c, d] = some n)

def Piece.bytes : Piece → Bytes
  | byte b _ => [b]
  | letter c _ _ => [92, c]
  | unit a b c d _ _ => [92, 117, a, b, c, d]

def codePoint (n : Nat) : Bytes := Bytes.ofText (String.singleton (Char.ofNat n))

/-- The bytes that some pieces stand for; there are none for half a character. -/
def denote? : List Piece → Option Bytes
  | [] => some []
  | .byte b _ :: rest => (denote? rest).map (b :: ·)
  | .letter _ b _ :: rest => (denote? rest).map (b :: ·)
  | .unit _ _ _ _ n _ :: rest =>
    if isTrail n then none
    else if isLead n then
      match rest with
      | .unit _ _ _ _ trail _ :: rest =>
        if isTrail trail then (denote? rest).map (codePoint (join n trail) ++ ·) else none
      | _ => none
    else (denote? rest).map (codePoint n ++ ·)

/-- The text that some pieces spell. -/
def spelled? (pieces : List Piece) : Option String := (denote? pieces).bind Bytes.text?

/-- What a scan comes to that has so many bytes and finds the given ones up to the quote. -/
def found (out : Bytes) (denoted : Option Bytes) (rest : Bytes) :
    Except ReadError (Bytes × Bytes) :=
  match denoted with
  | some b => .ok (out.reverse ++ b, rest)
  | none => .error .malformed

theorem found_push (out more : Bytes) (denoted : Option Bytes) (rest : Bytes) :
    found (more.reverse ++ out) denoted rest = found out (denoted.map (more ++ ·)) rest := by
  cases denoted <;> simp [found]

theorem scan_malformed {mode : Mode} {c : UInt8} {out : Bytes} (rest : Bytes)
    (hquote : ¬(mode = .plain ∧ c = 34)) (h : step mode out c = .error .malformed) :
    scan mode out (c :: rest) = .error .malformed := by
  rw [scan, if_neg hquote, h]

theorem scan_unit {a b c d : UInt8} {n : Nat} (h : Hex.toNat? [a, b, c, d] = some n)
    (lead : Option Nat) (out rest : Bytes) :
    scan (.codeUnit lead []) out (a :: b :: c :: d :: rest) =
      (finishUnit lead n out).bind fun p => scan p.1 p.2 rest := by
  have hlast : step (.codeUnit lead [c, b, a]) out d = finishUnit lead n out := by
    have hdigits : [d, c, b, a].reverse = [a, b, c, d] := rfl
    simp only [step, List.length_cons, List.length_nil, Nat.lt_irrefl, if_false, hdigits, h]
  rw [scan_step _ (by simp) rfl, scan_step _ (by simp) rfl, scan_step _ (by simp) rfl, scan,
    if_neg (by simp), hlast]
  cases finishUnit lead n out <;> rfl

/-- Half a character is followed by its other half or by nothing that can be read. -/
theorem scan_trail (lead : Nat) (out : Bytes) (pieces : List Piece) (rest : Bytes)
    (h : ∀ a b c d n hn more, pieces = .unit a b c d n hn :: more → isTrail n = false) :
    scan (.trail lead) out (pieces.flatMap Piece.bytes ++ 34 :: rest) = .error .malformed := by
  cases pieces with
  | nil => exact scan_malformed _ (by simp) rfl
  | cons piece more =>
    rw [List.flatMap_cons, List.append_assoc]
    cases piece with
    | byte b hb => exact scan_malformed _ (by simp) (by simp [step, hb.2.2])
    | letter c b hc =>
      have hletter : c ≠ 117 := by
        rintro rfl
        cases hc
      rw [Piece.bytes, List.cons_append, scan_step _ (by simp) rfl]
      exact scan_malformed _ (by simp) (by simp [step, hletter])
    | unit a b c d n hn =>
      have htrail := h a b c d n hn more rfl
      simp only [Piece.bytes, List.cons_append, List.nil_append]
      rw [scan_step _ (by simp) rfl, scan_step _ (by simp) rfl, scan_unit hn]
      simp [finishUnit, htrail, Except.bind]

/-- A first code unit decides how reading goes on. -/
theorem scan_first_unit {a b c d : UInt8} {n : Nat} (h : Hex.toNat? [a, b, c, d] = some n)
    (more : List Piece) (out rest : Bytes) :
    scan .plain out ((Piece.unit a b c d n h :: more).flatMap Piece.bytes ++ 34 :: rest) =
      (finishUnit none n out).bind fun p =>
        scan p.1 p.2 (more.flatMap Piece.bytes ++ 34 :: rest) := by
  simp only [List.flatMap_cons, Piece.bytes, List.cons_append, List.nil_append]
  rw [scan_step _ (by simp) rfl, scan_step _ (by simp) rfl, scan_unit h]

/-- Reading gives what the pieces stand for, and fails if that is nothing. -/
theorem scan_pieces (pieces : List Piece) (out rest : Bytes) :
    scan .plain out (pieces.flatMap Piece.bytes ++ 34 :: rest) =
      found out (denote? pieces) rest := by
  -- the cases are those of `denote?`: a first half alone, with its other half, or with another unit
  induction pieces using denote?.induct generalizing out with
  | case1 => simp [scan, found, denote?]
  | case2 b hb more ih =>
    have hstep : step .plain out b = .ok (.plain, b :: out) := by
      simp [step, hb.2.2, UInt8.not_lt.mpr hb.1]
    rw [List.flatMap_cons, List.append_assoc, Piece.bytes, List.singleton_append,
      scan_step _ (by simp [hb.2.1]) hstep, ih]
    exact found_push out [b] _ rest
  | case3 c b hc more ih =>
    have hletter : c ≠ 117 := by
      rintro rfl
      cases hc
    have hstep : step .escape out c = .ok (.plain, b :: out) := by
      simp [step, hletter, hc]
    rw [List.flatMap_cons, List.append_assoc, Piece.bytes, List.cons_append, List.singleton_append,
      scan_step _ (by simp) rfl, scan_step _ (by simp) hstep, ih]
    exact found_push out [b] _ rest
  | case4 a b c d n hn more htrail =>
    rw [scan_first_unit, denote?.eq_def]
    simp [finishUnit, htrail, Except.bind, found]
  | case5 a b c d n hn htrail hlead a' b' c' d' trail ht more hpair ih =>
    have hjoin := found_push out (codePoint (join n trail)) (denote? more) rest
    rw [scan_first_unit, denote?.eq_def]
    simp only [finishUnit, htrail, hlead, hpair, Except.bind, if_true, Bool.false_eq_true, if_false,
      List.flatMap_cons, Piece.bytes, List.cons_append, List.nil_append]
    rw [scan_step _ (by simp) rfl, scan_step _ (by simp) rfl, scan_unit ht]
    simp only [finishUnit, hpair, if_true, Except.bind]
    rw [ih, ← hjoin]
    rfl
  | case6 a b c d n hn htrail hlead a' b' c' d' trail ht more hpair =>
    rw [scan_first_unit, denote?.eq_def]
    simp only [finishUnit, htrail, hlead, hpair, Except.bind, if_true, Bool.false_eq_true, if_false,
      found]
    refine scan_trail _ _ _ _ fun _ _ _ _ m _ _ heq => ?_
    cases (List.cons.inj heq).1
    exact Bool.eq_false_iff.mpr hpair
  | case7 a b c d n hn more htrail hlead hother =>
    have hnone : denote? (.unit a b c d n hn :: more) = none := by
      simp only [denote?, htrail, hlead, if_true, Bool.false_eq_true, if_false]
    rw [scan_first_unit, hnone]
    simp only [finishUnit, htrail, hlead, Except.bind, if_true, Bool.false_eq_true, if_false, found]
    exact scan_trail _ _ _ _ fun _ _ _ _ m hm _ heq => (hother _ _ _ _ m hm _ heq).elim
  | case8 a b c d n hn more htrail hlead ih =>
    have hpush := found_push out (codePoint n) (denote? more) rest
    rw [scan_first_unit, denote?.eq_def]
    simp only [finishUnit, htrail, hlead, Except.bind, Bool.false_eq_true, if_false]
    rw [ih, ← hpush]
    rfl

theorem read_pieces (pieces : List Piece) (rest : Bytes) :
    read (pieces.flatMap Piece.bytes ++ 34 :: rest) =
      (spelled? pieces).elim (.error .malformed) fun s => .ok (s, rest) := by
  rw [read, scan_pieces, spelled?]
  cases denote? pieces with
  | none => rfl
  | some b =>
    simp only [found, List.reverse_nil, List.nil_append, bind, Except.bind, Option.bind_some]
    cases Bytes.text? b <;> rfl

theorem skip_step {mode next : Mode} {c : UInt8} (rest : Bytes)
    (hquote : ¬(mode = .plain ∧ c = 34)) (h : skipStep mode c = .ok next) :
    skip mode (c :: rest) = skip next rest := by
  rw [skip, if_neg hquote, h]

theorem skip_unit {a b c d : UInt8} {n : Nat} (h : Hex.toNat? [a, b, c, d] = some n)
    (rest : Bytes) :
    skip (.codeUnit none []) (a :: b :: c :: d :: rest) = skip .plain rest := by
  have hlast : skipStep (.codeUnit none [c, b, a]) d = .ok .plain := by
    have hdigits : [d, c, b, a].reverse = [a, b, c, d] := rfl
    simp only [skipStep, List.length_cons, List.length_nil, Nat.lt_irrefl, if_false, hdigits, h,
      Option.isSome_some, if_true]
  rw [skip_step _ (by simp) rfl, skip_step _ (by simp) rfl, skip_step _ (by simp) rfl,
    skip_step _ (by simp) hlast]

/-- Whatever the pieces stand for, they are passed over. -/
theorem skip_pieces (pieces : List Piece) (rest : Bytes) :
    skip .plain (pieces.flatMap Piece.bytes ++ 34 :: rest) = .ok rest := by
  induction pieces with
  | nil => simp [skip]
  | cons piece more ih =>
    rw [List.flatMap_cons, List.append_assoc]
    cases piece with
    | byte b hb =>
      have hstep : skipStep .plain b = .ok .plain := by
        simp [skipStep, step, hb.2.2, UInt8.not_lt.mpr hb.1, Except.map]
      rw [Piece.bytes, List.singleton_append, skip_step _ (by simp [hb.2.1]) hstep, ih]
    | letter c b hc =>
      have hletter : c ≠ 117 := by
        rintro rfl
        cases hc
      have hstep : skipStep .escape c = .ok .plain := by
        simp [skipStep, step, hletter, hc, Except.map]
      rw [Piece.bytes, List.cons_append, List.singleton_append, skip_step _ (by simp) rfl,
        skip_step _ (by simp) hstep, ih]
    | unit a b c d n hn =>
      simp only [Piece.bytes, List.cons_append, List.nil_append]
      rw [skip_step _ (by simp) rfl, skip_step _ (by simp) rfl, skip_unit hn, ih]

end Text

/-! ## Numbers -/

def IsDigits (b : Bytes) : Prop := b ≠ [] ∧ ∀ d ∈ b, Decimal.isDigit d = true

inductive IsFraction : Bytes → Prop
  | absent : IsFraction []
  | present {digits : Bytes} (h : IsDigits digits) : IsFraction (46 :: digits)

inductive IsExponent : Bytes → Prop
  | absent : IsExponent []
  | present {mark : UInt8} {sign digits : Bytes} (hmark : mark = 101 ∨ mark = 69)
      (hsign : sign = [] ∨ sign = [43] ∨ sign = [45]) (h : IsDigits digits) :
      IsExponent (mark :: (sign ++ digits))

/-- A number without its sign. -/
inductive IsNumeral : Bytes → Prop
  | parts {whole fraction exponent : Bytes} (hwhole : IsDigits whole)
      (hzero : whole.head? = some 48 → whole = [48]) (hfraction : IsFraction fraction)
      (hexponent : IsExponent exponent) : IsNumeral (whole ++ (fraction ++ exponent))

/-- Whether a byte ends what stands before it. -/
def isDelimiter (c : UInt8) : Bool := isSpace c || c == 44 || c == 93 || c == 125

/-- Nothing here goes on with what stands before it. -/
def Stops (b : Bytes) : Prop := ∀ c ∈ b.head?, isDelimiter c = true

/-- No digit is at the front. -/
def NoDigit (b : Bytes) : Prop := ∀ c ∈ b.head?, Decimal.isDigit c = false

theorem isDelimiter_ends {c : UInt8} (h : isDelimiter c = true) :
    Decimal.isDigit c = false ∧ c ≠ 46 ∧ c ≠ 101 ∧ c ≠ 69 := by
  simp only [isDelimiter, isSpace, Bool.or_eq_true, beq_iff_eq] at h
  rcases h with (((((rfl | rfl) | rfl) | rfl) | rfl) | rfl) | rfl <;> decide

theorem Stops.noDigit {b : Bytes} (h : Stops b) : NoDigit b :=
  fun c hc => (isDelimiter_ends (h c hc)).1

theorem stops_nil : Stops [] := fun _ h => nomatch h

theorem stops_cons {c : UInt8} (h : isDelimiter c = true) (rest : Bytes) : Stops (c :: rest) := by
  intro d hd
  obtain rfl := Option.some.inj hd
  exact h

namespace Literal

variable {x rest : Bytes}

theorem readDigits_append (h : IsDigits x) (hrest : NoDigit rest) :
    readDigits (x ++ rest) = .ok (x, rest) := by
  have hstop : rest.takeWhile Decimal.isDigit = [] ∧ rest.dropWhile Decimal.isDigit = rest := by
    cases rest with
    | nil => exact ⟨rfl, rfl⟩
    | cons c rest =>
      have hc := hrest c rfl
      exact ⟨List.takeWhile_cons_of_neg (by simp [hc]), List.dropWhile_cons_of_neg (by simp [hc])⟩
  have htake : (x ++ rest).takeWhile Decimal.isDigit = x := by
    rw [List.takeWhile_append_of_pos h.2, hstop.1, List.append_nil]
  have hdrop : (x ++ rest).dropWhile Decimal.isDigit = rest := by
    rw [List.dropWhile_append_of_pos h.2, hstop.2]
  obtain ⟨d, digits, rfl⟩ := List.exists_cons_of_ne_nil h.1
  rw [readDigits, htake, hdrop]

theorem IsExponent.head (h : IsExponent x) (hrest : Stops rest) :
    NoDigit (x ++ rest) ∧ ∀ c ∈ (x ++ rest).head?, c ≠ 46 := by
  cases h with
  | absent => exact ⟨hrest.noDigit, fun c hc => (isDelimiter_ends (hrest c hc)).2.1⟩
  | present hmark =>
    constructor
    · intro c hc
      obtain rfl := Option.some.inj hc
      rcases hmark with rfl | rfl <;> rfl
    · intro c hc
      obtain rfl := Option.some.inj hc
      rcases hmark with rfl | rfl <;> decide

theorem readExponent_append (h : IsExponent x) :
    ∃ e, ∀ {rest}, Stops rest → readExponent (x ++ rest) = .ok (e, rest) := by
  cases h with
  | absent =>
    refine ⟨none, fun {rest} hrest => ?_⟩
    rw [List.nil_append]
    cases rest with
    | nil => rfl
    | cons c rest =>
      obtain ⟨-, -, hlower, hupper⟩ := isDelimiter_ends (hrest c rfl)
      rw [readExponent, if_neg (by simp [hlower, hupper])]
  | @present mark sign digits hmark hsign hdigits =>
    obtain ⟨d, more, rfl⟩ := List.exists_cons_of_ne_nil hdigits.1
    have hd := hdigits.2 d List.mem_cons_self
    have hplain : d ≠ 45 ∧ d ≠ 43 := by
      constructor <;> (rintro rfl; cases hd)
    have hsigned : ∃ negative, ∀ rest,
        readSign (sign ++ (d :: more ++ rest)) = (negative, d :: more ++ rest) := by
      rcases hsign with rfl | rfl | rfl
      · exact ⟨false, fun rest => by simp [readSign, hplain]⟩
      · exact ⟨false, fun rest => by simp [readSign]⟩
      · exact ⟨true, fun rest => by simp [readSign]⟩
    obtain ⟨negative, hsigned⟩ := hsigned
    refine ⟨some (negative, d :: more), fun {rest} hrest => ?_⟩
    rw [List.cons_append, List.append_assoc, readExponent, if_pos hmark, hsigned]
    simp only [readDigits_append hdigits hrest.noDigit, bind, Except.bind]
    rfl

theorem IsFraction.noDigit (h : IsFraction x) (hrest : NoDigit rest) : NoDigit (x ++ rest) := by
  cases h with
  | absent => exact hrest
  | present =>
    intro c hc
    obtain rfl := Option.some.inj hc
    rfl

theorem readFraction_append (h : IsFraction x) :
    ∃ f, ∀ {rest : Bytes}, NoDigit rest → (∀ c ∈ rest.head?, c ≠ 46) →
      readFraction (x ++ rest) = .ok (f, rest) := by
  cases h with
  | absent =>
    refine ⟨none, fun {rest} _ hdot => ?_⟩
    rw [List.nil_append]
    cases rest with
    | nil => rfl
    | cons c rest => rw [readFraction, if_neg (hdot c rfl)]
  | @present digits hdigits =>
    refine ⟨some digits, fun {rest} hdigit _ => ?_⟩
    rw [List.cons_append, readFraction, if_pos rfl, readDigits_append hdigits hdigit]
    rfl

theorem read_append (h : IsNumeral x) :
    ∃ l, ∀ {rest}, Stops rest → read (x ++ rest) = .ok (l, rest) := by
  obtain @⟨whole, fraction, exponent, hwhole, hzero, hfraction, hexponent⟩ := h
  obtain ⟨e, he⟩ := readExponent_append hexponent
  obtain ⟨f, hf⟩ := readFraction_append hfraction
  have hlength : ¬(whole.head? = some 48 ∧ 1 < whole.length) := by
    rintro ⟨hhead, hlong⟩
    rw [hzero hhead] at hlong
    exact absurd hlong (by decide)
  refine ⟨⟨whole, f, e⟩, fun {rest} hrest => ?_⟩
  obtain ⟨hdigit, hdot⟩ := IsExponent.head hexponent hrest
  rw [List.append_assoc, List.append_assoc, read,
    readDigits_append hwhole (IsFraction.noDigit hfraction hdigit)]
  simp only [bind, Except.bind, if_neg hlength, hf hdigit hdot, he hrest]
  rfl

end Literal

/-! ## Scalars -/

/-- Values other than arrays and objects. -/
inductive IsScalar : Bytes → Prop
  | null : IsScalar (Bytes.ofText "null")
  | bool (b : Bool) : IsScalar (Bytes.ofText (toString b))
  | text (pieces : List Text.Piece) : IsScalar (34 :: (pieces.flatMap Text.Piece.bytes ++ [34]))
  | number {x : Bytes} (h : IsNumeral x) : IsScalar x
  | negative {x : Bytes} (h : IsNumeral x) : IsScalar (45 :: x)

/-- The value that a scalar denotes, numbers apart. -/
inductive Denotes : Bytes → Json → Prop
  | null : Denotes (Bytes.ofText "null") .null
  | bool (b : Bool) : Denotes (Bytes.ofText (toString b)) (.bool b)
  | text {pieces : List Text.Piece} {s : String} (h : Text.spelled? pieces = some s) :
      Denotes (34 :: (pieces.flatMap Text.Piece.bytes ++ [34])) (.text s)

theorem expect_append (word rest : Bytes) : expect word (word ++ rest) = .ok rest := by
  induction word with
  | nil => rfl
  | cons w word ih => rw [List.cons_append, expect, if_pos rfl, ih]

/-- A digit starts no other scalar. -/
theorem ne_of_isDigit {c : UInt8} (h : Decimal.isDigit c = true) :
    c ≠ 110 ∧ c ≠ 116 ∧ c ≠ 102 ∧ c ≠ 34 ∧ c ≠ 45 := by
  refine ⟨?_, ?_, ?_, ?_, ?_⟩ <;> (rintro rfl; cases h)

theorem readScalar_digit {c : UInt8} (h : Decimal.isDigit c = true) (rest : Bytes) :
    readScalar c rest = (readNumber false (c :: rest)).map fun r => (number r.1, r.2) := by
  simp only [readScalar, ne_of_isDigit h, h, if_true, if_false]
  rfl

theorem skipScalar_digit {c : UInt8} (h : Decimal.isDigit c = true) (rest : Bytes) :
    skipScalar c rest = skipNumber (c :: rest) := by
  simp only [skipScalar, ne_of_isDigit h, h, if_true, if_false]

/-- How a scalar is read that starts with a byte: what comes of it does not depend on what stands
behind, and it is passed over whatever comes of it. -/
structure ReadsScalar (c : UInt8) (text : Bytes) (r : Except ReadError Json) : Prop where
  space : isSpace c = false
  close : ∀ bracket : Bracket, c ≠ bracket.close
  opens : Bracket.opens c = none
  read : ∀ rest, Stops rest → readScalar c (text ++ rest) = r.map (·, rest)
  skip : ∀ rest, Stops rest → skipScalar c (text ++ rest) = .ok rest

theorem forall_bracket {c : UInt8} (harray : c ≠ 93) (hobject : c ≠ 125) (bracket : Bracket) :
    c ≠ bracket.close := by
  cases bracket with
  | array => exact harray
  | object => exact hobject

section Numerals

variable {x rest : Bytes}

theorem IsNumeral.head (h : IsNumeral x) : ∃ c text, x = c :: text ∧ Decimal.isDigit c = true := by
  obtain @⟨whole, fraction, exponent, hwhole, -, -, -⟩ := h
  obtain ⟨c, more, rfl⟩ := List.exists_cons_of_ne_nil hwhole.1
  exact ⟨c, _, rfl, hwhole.2 c List.mem_cons_self⟩

/-- What a numeral denotes does not depend on what stands behind it. -/
theorem readNumber_append (h : IsNumeral x) (negative : Bool) :
    ∃ r : Except ReadError Number,
      ∀ {rest}, Stops rest → readNumber negative (x ++ rest) = r.map (·, rest) := by
  obtain ⟨l, hl⟩ := Literal.read_append h
  refine ⟨l.denote negative, fun {rest} hrest => ?_⟩
  rw [readNumber, hl hrest]
  change (l.denote negative >>= fun n => .ok (n, rest)) = _
  cases l.denote negative <;> rfl

theorem skipNumber_append (h : IsNumeral x) (hrest : Stops rest) :
    skipNumber (x ++ rest) = .ok rest := by
  obtain ⟨l, hl⟩ := Literal.read_append h
  rw [skipNumber, hl hrest]

end Numerals

theorem ReadsScalar.word {c : UInt8} {word : Bytes} {v : Json} (hspace : isSpace c = false)
    (hclose : ∀ bracket : Bracket, c ≠ bracket.close) (hopens : Bracket.opens c = none)
    (hread : ∀ rest, readScalar c rest = do return (v, ← expect word rest))
    (hskip : ∀ rest, skipScalar c rest = expect word rest) : ReadsScalar c word (.ok v) := by
  refine ⟨hspace, hclose, hopens, fun rest _ => ?_, fun rest _ => ?_⟩
  · rw [hread, expect_append]
    rfl
  · rw [hskip, expect_append]

theorem ReadsScalar.pieces (pieces : List Text.Piece) :
    ReadsScalar 34 (pieces.flatMap Text.Piece.bytes ++ [34])
      ((Text.spelled? pieces).elim (.error .malformed) fun s => .ok (.text s)) := by
  refine ⟨rfl, forall_bracket (by decide) (by decide), rfl, fun rest _ => ?_, fun rest _ => ?_⟩
  · rw [List.append_assoc, List.singleton_append]
    simp only [readScalar, Text.read_pieces]
    cases Text.spelled? pieces <;> rfl
  · rw [List.append_assoc, List.singleton_append]
    exact Text.skip_pieces pieces rest

theorem exists_reads_number {c : UInt8} {text : Bytes} (h : IsNumeral (c :: text))
    (hc : Decimal.isDigit c = true) :
    ∃ r : Except ReadError Number, ReadsScalar c text (r.map .number) := by
  obtain ⟨r, hr⟩ := readNumber_append h false
  have hspace : isSpace c = false := by
    by_contra hspace
    simp only [isSpace, Bool.not_eq_false, Bool.or_eq_true, beq_iff_eq] at hspace
    rcases hspace with ((rfl | rfl) | rfl) | rfl <;> cases hc
  have hopens : Bracket.opens c = none := by
    have hplain : c ≠ 91 ∧ c ≠ 123 := by
      constructor <;> (rintro rfl; cases hc)
    simp [Bracket.opens, hplain]
  have hclose : ∀ bracket : Bracket, c ≠ bracket.close := by
    rintro bracket rfl
    cases bracket <;> cases hc
  refine ⟨r, hspace, hclose, hopens, fun rest hrest => ?_, fun rest hrest => ?_⟩
  · rw [readScalar_digit hc, ← List.cons_append, hr hrest]
    cases r <;> rfl
  · rw [skipScalar_digit hc, ← List.cons_append, skipNumber_append h hrest]

theorem exists_reads_negative {x : Bytes} (h : IsNumeral x) :
    ∃ r : Except ReadError Number, ReadsScalar 45 x (r.map .number) := by
  obtain ⟨r, hr⟩ := readNumber_append h true
  refine ⟨r, rfl, forall_bracket (by decide) (by decide), rfl, fun rest hrest => ?_,
    fun rest hrest => ?_⟩
  · simp only [readScalar, hr hrest]
    cases r <;> rfl
  · exact skipNumber_append h hrest

/-- A scalar is read alike whatever stands behind it, as what it denotes unless that is a number,
and passed over even if it denotes nothing. -/
theorem readsScalar {x : Bytes} (h : IsScalar x) :
    ∃ c text r, x = c :: text ∧ ReadsScalar c text r ∧
      ∀ v, r = .ok v → Denotes x v ∨ ∃ n, v = .number n := by
  have hdenotes {v w : Json} {x : Bytes} (h : Denotes x v)
      (hw : (.ok v : Except ReadError Json) = .ok w) : Denotes x w ∨ ∃ n, w = .number n := by
    obtain rfl := Except.ok.inj hw
    exact .inl h
  have hnumber (x : Bytes) (r : Except ReadError Number) (v : Json) (hv : r.map .number = .ok v) :
      Denotes x v ∨ ∃ n, v = .number n := by
    cases r with
    | error e => cases hv
    | ok n => exact .inr ⟨n, (Except.ok.inj hv).symm⟩
  cases h with
  | null =>
    have hreads : ReadsScalar 110 [117, 108, 108] (.ok .null) :=
      .word rfl (forall_bracket (by decide) (by decide)) rfl (fun _ => rfl) fun _ => rfl
    exact ⟨_, _, _, rfl, hreads, fun _ => hdenotes .null⟩
  | bool b =>
    cases b with
    | true =>
      have hreads : ReadsScalar 116 [114, 117, 101] (.ok (.bool true)) :=
        .word rfl (forall_bracket (by decide) (by decide)) rfl (fun _ => rfl) fun _ => rfl
      exact ⟨_, _, _, rfl, hreads, fun _ => hdenotes (.bool true)⟩
    | false =>
      have hreads : ReadsScalar 102 [97, 108, 115, 101] (.ok (.bool false)) :=
        .word rfl (forall_bracket (by decide) (by decide)) rfl (fun _ => rfl) fun _ => rfl
      exact ⟨_, _, _, rfl, hreads, fun _ => hdenotes (.bool false)⟩
  | text pieces =>
    refine ⟨_, _, _, rfl, .pieces pieces, fun v hv => ?_⟩
    cases hspelled : Text.spelled? pieces with
    | none =>
      rw [hspelled] at hv
      cases hv
    | some s =>
      rw [hspelled] at hv
      exact hdenotes (.text hspelled) hv
  | number hx =>
    obtain ⟨c, text, rfl, hc⟩ := hx.head
    obtain ⟨r, hr⟩ := exists_reads_number hx hc
    exact ⟨_, _, _, rfl, hr, hnumber _ r⟩
  | negative hx =>
    obtain ⟨r, hr⟩ := exists_reads_negative hx
    exact ⟨_, _, _, rfl, hr, hnumber _ r⟩

theorem readScalar_of_denotes {c : UInt8} {text : Bytes} {v : Json} (h : Denotes (c :: text) v) :
    readScalar c text = .ok (v, []) := by
  generalize hx : c :: text = x at h
  cases h with
  | null =>
    obtain ⟨rfl, rfl⟩ := List.cons.inj hx
    rfl
  | bool b =>
    cases b with
    | true =>
      obtain ⟨rfl, rfl⟩ := List.cons.inj hx
      rfl
    | false =>
      obtain ⟨rfl, rfl⟩ := List.cons.inj hx
      rfl
  | text hspelled =>
    obtain ⟨rfl, rfl⟩ := List.cons.inj hx
    simp only [readScalar, Text.read_pieces, hspelled]
    rfl

theorem Denotes.isScalar {x : Bytes} {v : Json} (h : Denotes x v) : IsScalar x := by
  cases h with
  | null => exact .null
  | bool b => exact .bool b
  | text => exact .text _

theorem Denotes.opens_eq_none {c : UInt8} {text : Bytes} {v : Json} (h : Denotes (c :: text) v) :
    Bracket.opens c = none := by
  obtain ⟨d, more, r, heq, hreads, -⟩ := readsScalar h.isScalar
  obtain ⟨rfl, rfl⟩ := List.cons.inj heq
  exact hreads.opens

theorem Denotes.unique {x : Bytes} {v w : Json} (hv : Denotes x v) (hw : Denotes x w) : v = w := by
  obtain ⟨c, text, -, rfl, -⟩ := readsScalar hv.isScalar
  have hread := (readScalar_of_denotes hv).symm.trans (readScalar_of_denotes hw)
  exact (Prod.mk.inj (Except.ok.inj hread)).1

end EvmTrace.Json
