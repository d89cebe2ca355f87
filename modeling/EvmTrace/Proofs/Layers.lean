import EvmTrace.Proofs.Options
import EvmTrace.Proofs.SettingsTexts

/-!
# Layers of settings

A text of settings has members for some keys, the same onto whatever settings it is read. So each
key goes through four layers: its flag, its variable, its member in the file, and its default.
-/
namespace EvmTrace

/-! ## What a text has -/

namespace Settings

open Json

/-- The settings after the members of some keys. -/
def Puts (m : Key → Option Json) (s t : Settings) : Prop :=
  ∀ k, t.value k = (m k).getD (s.value k)

/-- A reader puts the same members onto any settings and leaves the same rest. -/
def Yields (f : Settings → Except ReadError (Settings × Bytes)) (m : Key → Option Json)
    (rest : Bytes) : Prop :=
  ∀ s, ∃ t, f s = .ok (t, rest) ∧ Puts m s t

section Yields

variable {f g h : Settings → Except ReadError (Settings × Bytes)} {m n : Key → Option Json}
  {s t : Settings} {b rest more : Bytes}

theorem Yields.congr (hf : Yields f m rest) (hh : ∀ s, h s = f s) : Yields h m rest :=
  fun s => hh s ▸ hf s

/-- What is read later comes first. -/
theorem Yields.next (hf : Yields f m rest) (hg : Yields g n more)
    (hh : ∀ s t, f s = .ok (t, rest) → h s = g t) : Yields h (fun k => (n k).or (m k)) more := by
  intro s
  obtain ⟨t, ht, hput⟩ := hf s
  obtain ⟨u, hu, hput'⟩ := hg t
  refine ⟨u, (hh s t ht).trans hu, fun k => ?_⟩
  rw [hput', hput, Option.getD_or]

end Yields

/-- What a text has for each key, onto whatever settings it is read. -/
def Gives (b : Bytes) (m : Key → Option Json) : Prop :=
  ∀ s, ∃ t, readOnto s b = .ok t ∧ Puts m s t

section Gives

variable {b : Bytes} {m n : Key → Option Json} {s t : Settings}

/-- For every key there are settings with something else. -/
theorem exists_value_ne (k : Key) (v : Json) : ∃ s : Settings, s.value k ≠ v := by
  let other : Settings := ⟨true, false, true, true, some "", some "", "node", ""⟩
  have hother : other.value k ≠ default.value k := by
    cases k <;> simp [other, value, get?, default, Protocol.defaultChainVariant]
  by_cases hv : default.value k = v
  · exact ⟨other, hv ▸ hother⟩
  · exact ⟨default, hv⟩

theorem Gives.eq_none {k : Key} (hm : Gives b m)
    (h : ∀ s t, readOnto s b = .ok t → t.value k = s.value k) : m k = none := by
  cases hv : m k with
  | none => rfl
  | some v =>
    obtain ⟨s, hs⟩ := exists_value_ne k v
    obtain ⟨t, ht, hput⟩ := hm s
    refine (hs ?_).elim
    rw [← h s t ht, hput, hv, Option.getD_some]

theorem Gives.eq_some {k : Key} {v : Json} (hm : Gives b m)
    (h : ∀ s t, readOnto s b = .ok t → t.value k = v) : m k = some v := by
  cases hw : m k with
  | none =>
    obtain ⟨s, hs⟩ := exists_value_ne k v
    obtain ⟨t, ht, hput⟩ := hm s
    refine (hs ?_).elim
    rw [← h s t ht, hput, hw, Option.getD_none]
  | some w =>
    obtain ⟨t, ht, hput⟩ := hm default
    rw [← h default t ht, hput, hw, Option.getD_some]

/-- There is one way only to say what a text has. -/
theorem Gives.unique (hm : Gives b m) (hn : Gives b n) : m = n := by
  have hput (s t : Settings) (h : readOnto s b = .ok t) : Puts n s t := by
    obtain ⟨u, hu, hput⟩ := hn s
    obtain rfl : u = t := Except.ok.inj (hu.symm.trans h)
    exact hput
  funext k
  cases hv : n k with
  | none => exact hm.eq_none fun s t h => by rw [hput s t h k, hv, Option.getD_none]
  | some v => exact hm.eq_some fun s t h => by rw [hput s t h k, hv, Option.getD_some]

end Gives

end Settings

/-! ## Options over a file -/

namespace CommandLine

open Settings (Key)

section Resolve

variable {l : Line} {env : Environment} {files : Files} {a : Arguments} {t : Settings}

end Resolve

end CommandLine

end EvmTrace
