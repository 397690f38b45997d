/-
Configurations made of layers.

Overrides act on each field by itself. A text replaces its field whenever its
key is there. A number does so only if it is written as one (`Numeral`):
digits, with a plus in front if one likes, and of 64 bits; anything else is
passed over. `Layers` says so field by field, and determines the result.

What is loaded from a document or from the defaults is checked only after the
environment's overrides. So they may repair a document that asks for too small
a stack, and spoil one that does not; whatever comes out, a runtime takes it.
-/
import Mathlib.Data.Nat.Digits.Defs
import ObjectGroups.Config.Form
import ObjectGroups.Machine.Create

namespace ObjectGroups

/-! ## Numbers in decimal -/

namespace Text

/-- What a digit counts. -/
def digit (d : Char) : Nat := d.toNat - '0'.toNat

/-- The number that the digits are written for. -/
def value (ds : List Char) : Nat := Nat.ofDigits 10 (ds.map digit).reverse

/-- The text is a way to write the number, which has 64 bits. -/
def Numeral (s : String) (n : Nat) : Prop :=
  ∃ ds, (s.toList = ds ∨ s.toList = '+' :: ds) ∧ ds ≠ [] ∧ (∀ d ∈ ds, d.isDigit = true) ∧
    value ds = n ∧ n < Word.size

theorem digitValue?_ten (d : Char) : digitValue? 10 d = if d.isDigit then some (digit d) else none := by
  have bounds : d.isDigit = true ↔ 48 ≤ d.val.toNat ∧ d.val.toNat ≤ 57 := by
    simp only [Char.isDigit, Bool.and_eq_true, decide_eq_true_eq, ge_iff_le, UInt32.le_iff_toNat_le]
    rfl
  have same : (decide ('0' ≤ d) && decide (d ≤ '9')) = d.isDigit := by
    rw [Bool.eq_iff_iff, bounds]
    simp only [Bool.and_eq_true, decide_eq_true_eq, Char.le_def, UInt32.le_iff_toNat_le]
    rfl
  unfold digitValue?
  rw [same]
  by_cases h : d.isDigit = true
  · have small : digit d < 10 := by
      have high : d.toNat ≤ 57 := (bounds.mp h).2
      show d.toNat - 48 < 10
      omega
    simp only [h, if_true]
    show (some (digit d)).filter (fun v => decide (v < 10)) = some (digit d)
    simp [small]
  · -- A letter counts ten at least.
    simp only [h, Bool.false_eq_true, if_false]
    split
    · simp
    · split <;> simp

theorem value_cons (d : Char) (ds : List Char) : value (d :: ds) = digit d * 10 ^ ds.length + value ds := by
  simp [value, Nat.ofDigits_append, Nat.add_comm, Nat.mul_comm]

theorem foldlM_digits {ds : List Char} {n k : Nat} :
    ds.foldlM (fun n d => (digitValue? 10 d).map fun v => n * 10 + v) n = some k ↔
      (∀ d ∈ ds, d.isDigit = true) ∧ n * 10 ^ ds.length + value ds = k := by
  induction ds generalizing n with
  | nil => simp [value]
  | cons d ds ih =>
    rw [List.foldlM_cons, digitValue?_ten, List.forall_mem_cons]
    by_cases h : d.isDigit = true
    · have shifted : (n * 10 + digit d) * 10 ^ ds.length + value ds =
          n * 10 ^ (d :: ds).length + value (d :: ds) := by
        rw [value_cons, List.length_cons, Nat.pow_succ]
        ring
      simp [h, ih, shifted]
    · simp [h]

theorem ofDigits?_ten {ds : List Char} {n : Nat} :
    ofDigits? 10 ds = some n ↔ (∀ d ∈ ds, d.isDigit = true) ∧ value ds = n := by
  rw [ofDigits?, foldlM_digits, Nat.zero_mul, Nat.zero_add]

/-- A number can be read off a text just if the text is written as that number. -/
theorem natural?_eq_some {s : String} {n : Nat} : natural? s = some n ↔ Numeral s n := by
  have reads {ds : List Char} (hds : ds ≠ []) (hs : unsigned s.toList = ds) :
      natural? s = some n ↔ (∀ d ∈ ds, d.isDigit = true) ∧ value ds = n ∧ n < Word.size := by
    unfold natural?
    rw [hs]
    cases ds with
    | nil => exact absurd rfl hds
    | cons d ds => simp [Option.filter_eq_some_iff, ofDigits?_ten, and_assoc]
  constructor
  · intro h
    have some_digit : unsigned s.toList ≠ [] := by
      intro none
      simp [natural?, none] at h
    refine ⟨unsigned s.toList, ?_, some_digit, (reads some_digit rfl).mp h⟩
    unfold unsigned
    split
    · next ds hs => exact .inr hs
    · exact .inl rfl
  · rintro ⟨ds, written, hds, digits, rest⟩
    refine (reads hds ?_).mpr ⟨digits, rest⟩
    rcases written with plain | signed
    · -- A digit is no plus.
      rw [plain]
      unfold unsigned
      split
      · next ds =>
        have plus := digits '+' List.mem_cons_self
        cases plus
      · rfl
    · rw [signed]
      rfl

end Text

/-! ## Overrides -/

namespace RuntimeConfig

open Text

variable {c base : RuntimeConfig} {lookup env : String → Option String} {α : Type}

/-- A field takes the value that it is given, and without one keeps that of the base. -/
def Replaces (given : α → Prop) (base value : α) : Prop :=
  given value ∨ (∀ a, ¬ given a) ∧ value = base

/-- `c` is the base with the overrides that can be looked up. -/
structure Layers (lookup : String → Option String) (base c : RuntimeConfig) : Prop where
  namePrefix : Replaces (fun v => lookup prefixKey = some v) base.threads.namePrefix c.threads.namePrefix
  stackSize : Replaces (fun v => ∃ s n, lookup stackKey = some s ∧ Numeral s n ∧ v = some n)
    base.threads.stackSize c.threads.stackSize
  shutdownTimeoutMs : Replaces (fun n => ∃ s, lookup timeoutKey = some s ∧ Numeral s n)
    base.threads.shutdownTimeoutMs c.threads.shutdownTimeoutMs
  filter : Replaces (fun v => lookup filterKey = some v) base.logging.filter c.logging.filter

/-- The name of a thread begins with more than white space, and its stack is large enough. -/
structure Sound (c : RuntimeConfig) : Prop where
  namePrefix : ∃ d ∈ c.threads.namePrefix.toList, isBlank d = false
  stackSize : ∀ n, c.threads.stackSize = some n → 65536 ≤ n

theorem replaces_getD {o : Option α} {base value : α} :
    Replaces (fun a => o = some a) base value ↔ value = o.getD base := by
  cases o <;> simp [Replaces, eq_comm]

theorem replaces_or {o : Option Nat} {base value : Option Nat} :
    Replaces (fun a => ∃ n, o = some n ∧ a = some n) base value ↔ value = o.or base := by
  cases o <;> simp [Replaces]

theorem bind_natural? {o : Option String} {n : Nat} :
    o.bind natural? = some n ↔ ∃ s, o = some s ∧ Numeral s n := by
  simp [Option.bind_eq_some_iff, natural?_eq_some]

/-- What overrides come to is what is said of the fields. -/
theorem layers_iff : Layers lookup base c ↔ c = base.override lookup := by
  have fields : c = base.override lookup ↔
      c.threads.namePrefix = (base.override lookup).threads.namePrefix ∧
      c.threads.stackSize = (base.override lookup).threads.stackSize ∧
      c.threads.shutdownTimeoutMs = (base.override lookup).threads.shutdownTimeoutMs ∧
      c.logging.filter = (base.override lookup).logging.filter := by
    obtain ⟨⟨p, n, t⟩, ⟨f⟩⟩ := c
    simp [override, and_assoc]
  have stack : Replaces (fun v => ∃ s n, lookup stackKey = some s ∧ Numeral s n ∧ v = some n)
        base.threads.stackSize c.threads.stackSize ↔
      c.threads.stackSize = (base.override lookup).threads.stackSize := by
    have given : (fun v : Option Nat => ∃ s n, lookup stackKey = some s ∧ Numeral s n ∧ v = some n) =
        fun v => ∃ n, (lookup stackKey).bind natural? = some n ∧ v = some n := by
      funext v
      simp only [bind_natural?, eq_iff_iff]
      constructor
      · rintro ⟨s, n, hs, hn, hv⟩
        exact ⟨n, ⟨s, hs, hn⟩, hv⟩
      · rintro ⟨n, ⟨s, hs, hn⟩, hv⟩
        exact ⟨s, n, hs, hn, hv⟩
    rw [given, replaces_or]
    rfl
  have timeout : Replaces (fun n => ∃ s, lookup timeoutKey = some s ∧ Numeral s n)
        base.threads.shutdownTimeoutMs c.threads.shutdownTimeoutMs ↔
      c.threads.shutdownTimeoutMs = (base.override lookup).threads.shutdownTimeoutMs := by
    simp only [← bind_natural?]
    exact replaces_getD
  rw [fields, ← stack, ← timeout]
  constructor
  · intro h
    exact ⟨replaces_getD.mp h.namePrefix, h.stackSize, h.shutdownTimeoutMs, replaces_getD.mp h.filter⟩
  · rintro ⟨named, stack, timeout, filter⟩
    exact ⟨replaces_getD.mpr named, stack, timeout, replaces_getD.mpr filter⟩

theorem override_override (base : RuntimeConfig) (lookup : String → Option String) :
    (base.override lookup).override lookup = base.override lookup := by
  have texts (o : Option String) (base : String) : o.getD (o.getD base) = o.getD base := by
    cases o <;> rfl
  have numbers (o : Option Nat) (base : Nat) : o.getD (o.getD base) = o.getD base := by
    cases o <;> rfl
  have sizes (o base : Option Nat) : o.or (o.or base) = o.or base := by
    cases o <;> rfl
  simp [override, texts, numbers, sizes]

/-! ## What is loaded -/

theorem validate_eq_ok : c.validate = .ok () ↔ c.Sound := by
  have visible : blank c.threads.namePrefix = false ↔ ∃ d ∈ c.threads.namePrefix.toList, isBlank d = false := by
    simp [blank]
  have large : minStackSize = 65536 := rfl
  unfold validate
  split
  · next h =>
    refine ⟨by simp, fun sound => ?_⟩
    rw [visible.mpr sound.namePrefix] at h
    cases h
  · next h =>
    have named := visible.mp (by simpa using h)
    cases hs : c.threads.stackSize with
    | none => simpa using Sound.mk named (by simp [hs])
    | some size =>
      by_cases small : size < minStackSize
      · simp only [small, if_true]
        refine ⟨by simp, fun sound => ?_⟩
        have enough := sound.stackSize size hs
        omega
      · simp only [small, if_false, true_iff]
        refine ⟨named, fun n hn => ?_⟩
        cases hs.symm.trans hn
        omega

theorem environment_eq_some {key v : String} :
    environment env key = some v ↔ env key = some v ∧ v ≠ "" := by
  simp [environment, Option.filter_eq_some_iff]

theorem finish_eq_ok : base.finish env = .ok c ↔ Layers (environment env) base c ∧ c.Sound := by
  rw [layers_iff]
  unfold finish
  dsimp only
  split
  · next valid =>
    constructor
    · intro h
      cases h
      exact ⟨rfl, validate_eq_ok.mp valid⟩
    · rintro ⟨rfl, -⟩
      rfl
  · next invalid =>
    refine ⟨by simp, ?_⟩
    rintro ⟨rfl, sound⟩
    cases invalid.symm.trans (validate_eq_ok.mpr sound)

/-- The configuration that a document is of. -/
def document? (text : String) : Option RuntimeConfig := (Toml.read? text).bind (read .toml)

theorem ofToml_eq_ok {text : String} :
    ofToml text env = .ok c ↔ ∃ base, document? text = some base ∧ base.finish env = .ok c := by
  unfold ofToml document?
  cases (Toml.read? text).bind (read .toml) <;> simp

end RuntimeConfig

open RuntimeConfig

/-- A runtime takes a configuration just if it is sound. -/
theorem Machine.create_sound {S A V : Type} (c : RuntimeConfig) (memory : A) :
    (∃ m : Machine S A V, Machine.create c memory = .ok m) ↔ c.Sound := by
  rw [← validate_eq_ok]
  unfold Machine.create
  split
  · next valid => simp [valid]
  · next invalid => simp [invalid]

/-- What comes of the layers below the environment `env`. -/
structure RuntimeConfig.Loading (env : String → Option String) : Prop where
  /-- A value of the environment counts if it is not empty. -/
  given {key v : String} : environment env key = some v ↔ env key = some v ∧ v ≠ ""
  document {text : String} {c : RuntimeConfig} : ofToml text env = .ok c ↔
    ∃ base, document? text = some base ∧ Layers (environment env) base c ∧ c.Sound
  defaults {c : RuntimeConfig} : ofEnvironment env = .ok c ↔ Layers (environment env) {} c ∧ c.Sound
  /-- A runtime takes whatever is loaded. -/
  taken {text : String} {c : RuntimeConfig} : ofToml text env = .ok c ∨ ofEnvironment env = .ok c →
    ∀ {S A V : Type} (memory : A), ∃ m : Machine S A V, Machine.create c memory = .ok m

/-- Overrides act on each field by itself, and twice is once. What is loaded from a document or from
the defaults has the environment's overrides and is sound with them, whatever it was without. -/
theorem overrides_layered (base : RuntimeConfig) (lookup env : String → Option String) :
    (∀ c, c = base.override lookup ↔ Layers lookup base c) ∧
    (base.override lookup).override lookup = base.override lookup ∧ Loading env := by
  have document {text : String} {c : RuntimeConfig} : ofToml text env = .ok c ↔
      ∃ base, document? text = some base ∧ Layers (environment env) base c ∧ c.Sound := by
    simp only [ofToml_eq_ok, finish_eq_ok]
  have defaults {c : RuntimeConfig} :
      ofEnvironment env = .ok c ↔ Layers (environment env) {} c ∧ c.Sound := finish_eq_ok
  refine ⟨fun c => layers_iff.symm, override_override base lookup, environment_eq_some, document, defaults, ?_⟩
  intro text c loaded S A V memory
  refine (Machine.create_sound c memory).mpr ?_
  rcases loaded with fromText | fromDefaults
  · obtain ⟨parsed, -, -, sound⟩ := document.mp fromText
    exact sound
  · exact (defaults.mp fromDefaults).2

/-- An override repairs a document. -/
example : ofToml "[threads]\nstack_size = 1" (fun key => if key = stackKey then some "+65536" else none) =
    .ok { threads := { stackSize := some 65536 } } := by cbv

end ObjectGroups
