import EvmTrace.CommandLine
import EvmTrace.Proofs.Results
import Mathlib.Data.List.Nodup

/-!
# Options

The words that are accepted are those of flags, each for another option; then each option has the
value of its flag. The environment stands in for options without a flag, one after another.
-/
namespace EvmTrace.CommandLine

/-! ## Forms of words -/

namespace Word

theorem classify_plain {w text : String} (h : classify w = .plain text) : text = w := by
  unfold classify at h
  split at h
  · cases h
  · dsimp only at h
    split at h <;> cases h
  · cases h
  · exact (Word.plain.inj h).symm

theorem classify_escape {w : String} (h : classify w = .escape) : w = "--" := by
  unfold classify at h
  split at h
  · next hlist => exact String.toList_injective hlist
  · dsimp only at h
    split at h <;> cases h
  · cases h
  · cases h

/-- The word that gives a name and perhaps a value. -/
def naming (name : String) (value : Option String) : String :=
  "--" ++ name ++ value.elim "" ("=" ++ ·)

theorem toList_naming (name : String) (value : Option String) :
    (naming name value).toList =
      '-' :: '-' :: (name.toList ++ value.elim [] ('=' :: ·.toList)) := by
  cases value <;> simp [naming]

/-- What stands before and behind the first sign of equality. -/
theorem split_at_sign (rest : List Char) :
    rest = rest.takeWhile (· ≠ '=') ++ rest.dropWhile (· ≠ '=') ∧
      ∀ c v, rest.dropWhile (· ≠ '=') = c :: v → c = '=' := by
  refine ⟨List.takeWhile_append_dropWhile.symm, fun c v hrest => ?_⟩
  have hhead := List.head?_dropWhile_not (fun c => decide (c ≠ '=')) rest
  rw [hrest] at hhead
  simpa using hhead

theorem classify_long {w name : String} {value : Option String}
    (h : classify w = .long name value) : w = naming name value := by
  refine String.toList_injective ?_
  rw [toList_naming]
  unfold classify at h
  split at h
  · cases h
  · next rest _ hlist =>
    obtain ⟨hparts, hsign⟩ := split_at_sign rest
    dsimp only at h
    split at h
    · next hrest =>
      obtain ⟨rfl, rfl⟩ := Word.long.inj h
      rw [hrest] at hparts
      rw [hlist, String.toList_ofList, Option.elim_none, ← hparts]
    · next c v hrest =>
      obtain ⟨rfl, rfl⟩ := Word.long.inj h
      rw [hrest, hsign c v hrest] at hparts
      rw [hlist, String.toList_ofList, Option.elim_some, String.toList_ofList, ← hparts]
  · cases h
  · cases h

theorem classify_naming {name : String} (hname : name ≠ "") (hsign : '=' ∉ name.toList)
    (value : Option String) : classify (naming name value) = .long name value := by
  have hplain : ∀ c ∈ name.toList, decide (c ≠ '=') = true := by
    intro c hc
    rw [decide_eq_true_eq]
    rintro rfl
    exact hsign hc
  have htake : (name.toList ++ value.elim [] ('=' :: ·.toList)).takeWhile (· ≠ '=') =
      name.toList := by
    rw [List.takeWhile_append_of_pos hplain]
    cases value <;> simp
  have hdrop : (name.toList ++ value.elim [] ('=' :: ·.toList)).dropWhile (· ≠ '=') =
      value.elim [] ('=' :: ·.toList) := by
    rw [List.dropWhile_append_of_pos hplain]
    cases value <;> simp
  obtain ⟨c, more, hlist⟩ := List.exists_cons_of_ne_nil (mt String.toList_eq_nil_iff.mp hname)
  unfold classify
  rw [toList_naming]
  split
  · next heq => simp [hlist] at heq
  · next rest _ heq =>
    obtain rfl : name.toList ++ value.elim [] ('=' :: ·.toList) = rest := by simpa using heq
    simp only [htake, hdrop]
    cases value <;> simp
  · next hlong heq =>
    obtain ⟨-, hletter, -⟩ := by simpa only [List.cons.injEq] using heq
    exact (hlong hletter.symm).elim
  · next hlong heq => exact (hlong _ rfl).elim

end Word

/-! ## Options -/

/-- Options of both kinds. -/
inductive Opt
  | switch (s : Switch)
  | path (p : PathOption)
  deriving DecidableEq, Repr

namespace Opt

def all : List Opt := Switch.all.map switch ++ PathOption.all.map path

theorem mem_all (o : Opt) : o ∈ all := by
  obtain s | p := o
  · cases s <;> decide
  · cases p <;> decide

def name : Opt → String
  | switch s => s.name
  | path p => p.name

def environmentName : Opt → String
  | switch s => s.environmentName
  | path p => p.environmentName

/-- What a text gives of an option. Only a switch can do without a text. -/
def parse? : Opt → Option String → Option Json
  | switch _, none => some (.bool true)
  | switch _, some text => (parseBool text).toOption.map .bool
  | path _, none => none
  | path _, some text => if text = "" then none else some (.text text)

theorem find?_switch (s : Switch) : Switch.all.find? (·.name == s.name) = some s := by
  cases s <;> rfl

theorem find?_switch_path (p : PathOption) : Switch.all.find? (·.name == p.name) = none := by
  cases p <;> rfl

theorem find?_path (p : PathOption) : PathOption.all.find? (·.name == p.name) = some p := by
  cases p <;> rfl

theorem classify_naming (o : Opt) (value : Option String) :
    Word.classify (Word.naming o.name value) = .long o.name value := by
  have hall : ∀ o ∈ all, o.name ≠ "" ∧ '=' ∉ o.name.toList := by decide +kernel
  obtain ⟨hname, hsign⟩ := hall o o.mem_all
  exact Word.classify_naming hname hsign value

end Opt

namespace Arguments

def given? (a : Arguments) : Opt → Option Json
  | .switch s => (a.switch s).map .bool
  | .path p => (a.path p).map .text

def give (a : Arguments) : Opt → Option String → Except Refusal Arguments
  | .switch s, text => a.giveSwitch s text
  | .path p, some text => a.givePath p text
  | .path _, .none => .error .invalidValue

section Give

variable {a b : Arguments} {o : Opt} {text : Option String} {v : Json}

/-- An option is given once only, by a text that it takes. -/
theorem of_give (h : a.give o text = .ok b) : a.given? o = .none ∧ (o.parse? text).isSome := by
  obtain s | p := o
  · simp only [give, giveSwitch] at h
    split at h
    · cases h
    · next hnew =>
      refine ⟨by simpa [given?] using hnew, ?_⟩
      cases text with
      | none => rfl
      | some text =>
        obtain ⟨x, hx, -⟩ := bind_eq_ok.mp h
        simp [Opt.parse?, hx, Except.toOption]
  · cases text with
    | none => cases h
    | some text =>
      simp only [give, givePath] at h
      split at h
      · cases h
      · next hnew =>
        split at h
        · cases h
        · next htext => exact ⟨by simpa [given?] using hnew, by simp [Opt.parse?, htext]⟩

end Give

end Arguments

/-! ## Flags -/

/-- An option on the command line with its value. -/
inductive Flag
  /-- A switch without a value. -/
  | on (s : Switch)
  | switch (s : Switch) (x : Bool)
  /-- A path behind the sign of equality. -/
  | joined (p : PathOption) (text : String) (h : text ≠ "")
  /-- A path in the next word. -/
  | separate (p : PathOption) (text : String) (h : text ≠ "" ∧ Word.classify text = .plain text)

namespace Flag

def option : Flag → Opt
  | on s | switch s _ => .switch s
  | joined p _ _ | separate p _ _ => .path p

def text : Flag → Option String
  | on _ => none
  | switch _ x => some (toString x)
  | joined _ text _ | separate _ text _ => some text

def value : Flag → Json
  | on _ => .bool true
  | switch _ x => .bool x
  | joined _ text _ | separate _ text _ => .text text

def words : Flag → List String
  | separate p text _ => [Word.naming p.name none, text]
  | f => [Word.naming f.option.name f.text]

/-- A text that an option takes from its own word is that of a flag. -/
theorem exists_of_give {a b : Arguments} {o : Opt} {text : Option String}
    (h : a.give o text = .ok b) :
    ∃ f : Flag, f.words = [Word.naming o.name text] ∧ f.option = o ∧ f.text = text := by
  obtain ⟨v, hv⟩ := Option.isSome_iff_exists.mp (Arguments.of_give h).2
  obtain s | p := o
  · cases text with
    | none => exact ⟨.on s, rfl, rfl, rfl⟩
    | some text =>
      have htext : ∃ x : Bool, text = toString x := by
        by_cases htrue : text = "true"
        · exact ⟨true, htrue⟩
        · by_cases hfalse : text = "false"
          · exact ⟨false, hfalse⟩
          · simp [Opt.parse?, parseBool, htrue, hfalse, Except.toOption] at hv
      obtain ⟨x, rfl⟩ := htext
      exact ⟨.switch s x, rfl, rfl, rfl⟩
  · cases text with
    | none => cases hv
    | some text =>
      have htext : text ≠ "" := by
        rintro rfl
        cases hv
      exact ⟨.joined p text htext, rfl, rfl, rfl⟩

end Flag

/-- Takes a flag. -/
def Arguments.take (a : Arguments) (f : Flag) : Except Refusal Arguments := a.give f.option f.text

/-- What ends the options, if anything does. -/
def ending (isEnded : Bool) : List String := if isEnded then ["--"] else []

namespace Parsing

/-- The words of an option that is not judged yet. -/
def pendingWords : Option (PathOption × Option String) → List String
  | none => []
  | some (option, text) => Word.naming option.name none :: text.toList

/-- The words so far are those of the flags that are judged, of the option that is not, and the end
of the options if it came. -/
structure Reached (p : Parsing) (words : List String) (flags : List Flag) : Prop where
  words_eq : words = flags.flatMap Flag.words ++
    (pendingWords p.pending ++ ending p.isEscaped)
  given : flags.foldlM Arguments.take .none = .ok p.given
  plain : ∀ option text, p.pending = some (option, some text) → Word.classify text = .plain text

section Reached

variable {p q : Parsing} {words : List String} {flags : List Flag}

/-- A word that is judged by itself is one more flag. -/
theorem Reached.give {o : Opt} {text : Option String} {b : Arguments} (h : p.Reached words flags)
    (hpending : p.pending = none) (hescaped : p.isEscaped = false)
    (hb : p.given.give o text = .ok b) :
    ∃ more, Reached { p with given := b } (words ++ [Word.naming o.name text]) more := by
  obtain ⟨f, hwords, rfl, rfl⟩ := Flag.exists_of_give hb
  refine ⟨flags ++ [f], ?_, ?_, fun _ _ hplain => by simp [hpending] at hplain⟩
  · rw [h.words_eq, hpending, hescaped]
    simp [pendingWords, ending, hwords]
  · rw [List.foldlM_append, h.given, ok_bind, List.foldlM_cons, Arguments.take, hb]
    rfl

/-- An option that is judged is a flag with its value in a word of its own. -/
theorem Reached.settle (h : p.Reached words flags) (hq : p.settle = .ok q) :
    ∃ more, q.Reached words more ∧ q.pending = none ∧ q.isEscaped = p.isEscaped := by
  obtain ⟨given, pending, isEscaped⟩ := p
  match pending, hq with
  | none, hq =>
    obtain rfl := Except.ok.inj hq
    exact ⟨flags, h, rfl, rfl⟩
  | some (option, some text), hq =>
    obtain ⟨b, hgive, hq⟩ := bind_eq_ok.mp hq
    obtain rfl := Except.ok.inj hq
    have htext : text ≠ "" := by
      rintro rfl
      have hempty : given.give (.path option) (some "") = .ok b := hgive
      cases (Arguments.of_give hempty).2
    have hplain : Word.classify text = .plain text := h.plain _ _ rfl
    obtain ⟨rfl, hgiven, -⟩ := h
    let f : Flag := .separate option text ⟨htext, hplain⟩
    refine ⟨flags ++ [f], ⟨?_, ?_, fun _ _ h => (nomatch h)⟩, rfl, rfl⟩
    · simp [pendingWords, f, Flag.words]
    · rw [List.foldlM_append, hgiven, ok_bind, List.foldlM_cons]
      exact bind_eq_ok.mpr ⟨b, hgive, rfl⟩

/-- A word that gives a name is a flag, or leaves a path to the next word. -/
theorem Reached.long {name : String} {value : Option String} (h : p.Reached words flags)
    (hescaped : p.isEscaped = false) (hq : p.long name value = .ok q) :
    ∃ more, q.Reached (words ++ [Word.naming name value]) more := by
  unfold Parsing.long at hq
  split at hq
  · next s hs =>
    obtain rfl : s.name = name := by simpa using List.find?_some hs
    obtain ⟨p', hsettle, hq⟩ := bind_eq_ok.mp hq
    obtain ⟨b, hgive, hq⟩ := bind_eq_ok.mp hq
    obtain rfl := Except.ok.inj hq
    obtain ⟨more, hmore, hpending, hescaped'⟩ := h.settle hsettle
    have hgive : p'.given.give (.switch s) value = .ok b := hgive
    simpa only [Opt.name] using hmore.give hpending (hescaped'.trans hescaped) hgive
  · next option hswitch hoption =>
    obtain rfl : option.name = name := by simpa using List.find?_some hoption
    obtain ⟨p', hsettle, hq⟩ := bind_eq_ok.mp hq
    obtain ⟨more, hmore, hpending, hescaped'⟩ := h.settle hsettle
    cases value with
    | some text =>
      obtain ⟨b, hgive, hq⟩ := bind_eq_ok.mp hq
      obtain rfl := Except.ok.inj hq
      have hgive : p'.given.give (.path option) (some text) = .ok b := hgive
      simpa only [Opt.name] using hmore.give hpending (hescaped'.trans hescaped) hgive
    | none =>
      obtain rfl := Except.ok.inj hq
      refine ⟨more, ?_, hmore.given, fun _ _ h => by simp at h⟩
      rw [hmore.words_eq, hpending, hescaped', hescaped]
      simp [pendingWords, ending]
  · split at hq
    · cases value with
      | some _ => cases hq
      | none =>
        obtain ⟨_, _, hq⟩ := bind_eq_ok.mp hq
        cases hq
    · cases hq

theorem Reached.step {w : String} (h : p.Reached words flags) (hq : p.step w = .ok q) :
    ∃ more, q.Reached (words ++ [w]) more := by
  unfold Parsing.step at hq
  split at hq
  · cases hq
  · next hescaped =>
    have hescaped : p.isEscaped = false := by simpa using hescaped
    split at hq
    · next hword =>
      obtain rfl := Except.ok.inj hq
      refine ⟨flags, ?_, h.given, h.plain⟩
      rw [h.words_eq, hescaped, Word.classify_escape hword]
      simp [ending]
    · next name value hword =>
      rw [Word.classify_long hword]
      exact h.long hescaped hq
    · split at hq
      · obtain ⟨_, _, hq⟩ := bind_eq_ok.mp hq
        cases hq
      · cases hq
    · next text hword =>
      split at hq
      · next option hpending =>
        obtain rfl := Except.ok.inj hq
        obtain rfl := Word.classify_plain hword
        refine ⟨flags, ?_, h.given, ?_⟩
        · rw [h.words_eq, hpending, hescaped]
          simp [pendingWords, ending]
        · intro o t heq
          obtain ⟨-, rfl⟩ : option = o ∧ text = t := by simpa using heq
          exact hword
      · cases hq

theorem Reached.run (h : p.Reached words flags) {rest : List String}
    (hq : rest.foldlM Parsing.step p = .ok q) : ∃ more, q.Reached (words ++ rest) more := by
  induction rest generalizing p words flags with
  | nil =>
    obtain rfl := Except.ok.inj hq
    exact ⟨flags, by rwa [List.append_nil]⟩
  | cons w rest ih =>
    obtain ⟨p', hstep, hrest⟩ := bind_eq_ok.mp hq
    obtain ⟨more, hmore⟩ := h.step hstep
    obtain ⟨all, hall⟩ := ih hmore hrest
    exact ⟨all, by rwa [List.append_assoc] at hall⟩

end Reached

/-- The next word that is an option leads to the same as if these options were all judged. -/
def Ready (p : Parsing) (a : Arguments) : Prop := p.settle = .ok ⟨a, none, false⟩

section Ready

variable {p : Parsing} {a b : Arguments}

theorem Ready.isEscaped (h : p.Ready a) : p.isEscaped = false := by
  obtain ⟨given, pending, isEscaped⟩ := p
  match pending, h with
  | none, h => exact congrArg Parsing.isEscaped (Except.ok.inj h)
  | some (option, some text), h =>
    obtain ⟨_, _, h⟩ := bind_eq_ok.mp h
    exact congrArg Parsing.isEscaped (Except.ok.inj h)

theorem Ready.step {w name : String} {value : Option String} (h : p.Ready a)
    (hw : Word.classify w = .long name value) : p.step w = p.long name value := by
  simp only [Parsing.step, h.isEscaped, hw, Bool.false_eq_true, if_false]

/-- A flag in one word. -/
theorem Ready.long {o : Opt} {text : Option String} (h : p.Ready a) (hb : a.give o text = .ok b) :
    p.long o.name text = .ok ⟨b, none, false⟩ := by
  unfold Ready at h
  obtain s | option := o
  · have hgive : a.giveSwitch s text = .ok b := hb
    simp only [Parsing.long, Opt.name, Opt.find?_switch, h, ok_bind, hgive]
    rfl
  · cases text with
    | none => cases hb
    | some text =>
      have hgive : a.givePath option text = .ok b := hb
      simp only [Parsing.long, Opt.name, Opt.find?_switch_path, Opt.find?_path, h, ok_bind, hgive]
      rfl

/-- The words of a flag do what the flag does. -/
theorem Ready.flag {f : Flag} (h : p.Ready a) (hf : a.take f = .ok b) :
    ∃ q, f.words.foldlM Parsing.step p = .ok q ∧ q.Ready b := by
  have hone (hwords : f.words = [Word.naming f.option.name f.text]) :
      ∃ q, f.words.foldlM Parsing.step p = .ok q ∧ q.Ready b := by
    refine ⟨⟨b, none, false⟩, ?_, rfl⟩
    rw [hwords, List.foldlM_cons, h.step (Opt.classify_naming _ _), h.long hf]
    rfl
  cases f with
  | on s => exact hone rfl
  | switch s x => exact hone rfl
  | joined option text _ => exact hone rfl
  | separate option text htext =>
    -- the option is still pending behind its words, and judging it is what the flag does
    refine ⟨⟨a, some (option, some text), false⟩, ?_, bind_eq_ok.mpr ⟨b, hf, rfl⟩⟩
    have hname : p.step (Word.naming option.name none) = .ok ⟨a, some (option, none), false⟩ := by
      have hstep := h.step (Opt.classify_naming (.path option) none)
      unfold Ready at h
      simp only [Parsing.long, Opt.name, Opt.find?_switch_path, Opt.find?_path, h, ok_bind] at hstep
      exact hstep
    have htext : Parsing.step ⟨a, some (option, none), false⟩ text =
        .ok ⟨a, some (option, some text), false⟩ := by
      simp only [Parsing.step, htext.2, Bool.false_eq_true, if_false]
    rw [Flag.words, List.foldlM_cons, hname, ok_bind, List.foldlM_cons, htext]
    rfl

/-- The end of the options judges nothing. -/
theorem Ready.ending (h : p.Ready a) :
    ∃ q, p.step "--" = .ok q ∧ q.settle = .ok ⟨a, none, true⟩ := by
  have hword : Word.classify "--" = .escape := rfl
  refine ⟨{ p with isEscaped := true }, ?_, ?_⟩
  · simp only [Parsing.step, h.isEscaped, hword, Bool.false_eq_true, if_false]
  · obtain ⟨given, pending, isEscaped⟩ := p
    match pending, h with
    | none, h =>
      obtain rfl := congrArg Parsing.given (Except.ok.inj h)
      rfl
    | some (option, some text), h =>
      obtain ⟨b, hb, h⟩ := bind_eq_ok.mp h
      obtain rfl := congrArg Parsing.given (Except.ok.inj h)
      exact bind_eq_ok.mpr ⟨_, hb, rfl⟩

theorem Ready.flags {flags : List Flag} (h : p.Ready a)
    (hflags : flags.foldlM Arguments.take a = .ok b) :
    ∃ q, (flags.flatMap Flag.words).foldlM Parsing.step p = .ok q ∧ q.Ready b := by
  induction flags generalizing p a with
  | nil =>
    obtain rfl := Except.ok.inj hflags
    exact ⟨p, rfl, h⟩
  | cons f flags ih =>
    obtain ⟨c, hf, hflags⟩ := bind_eq_ok.mp hflags
    obtain ⟨q, hq, hready⟩ := h.flag hf
    obtain ⟨r, hr, hready⟩ := ih hready hflags
    exact ⟨r, by rw [List.flatMap_cons, List.foldlM_append, hq, ok_bind, hr], hready⟩

end Ready

end Parsing

/-- The value of the flag of an option. -/
def Flag.value? (flags : List Flag) (o : Opt) : Option Json :=
  (flags.find? (·.option = o)).map Flag.value

section Take

variable {a b : Arguments} {f : Flag} {flags : List Flag}

end Take

/-- Flags for different options, and perhaps an end. -/
structure Line where
  flags : List Flag
  isEnded : Bool
  distinct : (flags.map Flag.option).Nodup

namespace Line

def words (l : Line) : List String := l.flags.flatMap Flag.words ++ ending l.isEnded

/-- The value of the flag of an option. -/
def value? (l : Line) (o : Opt) : Option Json := Flag.value? l.flags o

end Line

/-! ## The environment -/

/-- What a variable gives of its option. -/
def Environment.value? (env : Environment) (o : Opt) : Option Json :=
  (env.lookup o.environmentName).bind fun text => o.parse? (some text)

/-- The variable of an option is missing, or has a value that the option takes. -/
def Environment.Fits (env : Environment) (o : Opt) : Prop :=
  (env.lookup o.environmentName).isSome → (env.value? o).isSome

instance (env : Environment) (o : Opt) : Decidable (env.Fits o) :=
  inferInstanceAs (Decidable (_ → _))

section Fill

variable {env : Environment} {a b : Arguments} {o : Opt}

variable {options : List Opt}

end Fill

namespace Line

variable {l : Line} {env : Environment} {a : Arguments}

/-- What the flag of an option gives, else its variable. -/
def given? (l : Line) (env : Environment) (o : Opt) : Option Json :=
  (l.value? o).or (env.value? o)

/-- The variables of options without a flag fit. -/
def Fits (l : Line) (env : Environment) : Prop := ∀ o, l.value? o = none → env.Fits o

end Line

end EvmTrace.CommandLine
