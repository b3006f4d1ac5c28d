import IngrediGo.Lib.Lists
import IngrediGo.Lib.Runs
import Mathlib.Data.Nat.Find

/-!
# Read-modify-write calls on a shared value

Calls share one stored value. Each reads it once, computes from what it read the value
to write (or that there is nothing to write), and later writes that value whole; reads
and writes are atomic and interleave freely, and nothing checks that the value read is
still the stored one.

* `Kept`: what every edit keeps, every interleaving keeps.
* `Undisturbed key P`: no call with `key` writes while another call, without it, is about
  to write a value that disagrees about `P`. Under it the calls with `key` decide `P`:
  `settled` when all of them set it alike, `Decided` when they write in the order they
  were made.
* `fail`: a call one of whose requests fails is over without a write.
* `State.map`: calls on a value are seen as calls on what is computed from it.
-/

namespace Lib.Rmw

open Lib

variable {σ ω : Type*}

/-- Where a call stands. -/
inductive Phase (σ : Type*) where
  /-- The read is still to be executed. -/
  | reading
  /-- The read has been executed; `v` is still to be written. -/
  | writing (v : σ)
  | done
  deriving DecidableEq, Repr

structure Call (σ ω : Type*) where
  op : ω
  phase : Phase σ
  deriving DecidableEq, Repr

structure State (σ ω : Type*) where
  store : σ
  calls : List (Call σ ω)
  deriving DecidableEq, Repr

/-- The value a call is about to write. -/
def Call.pending (c : Call σ ω) : Option σ :=
  match c.phase with
  | .writing v => some v
  | _ => none

theorem Call.mem_pending {c : Call σ ω} {v : σ} : v ∈ c.pending ↔ c.phase = .writing v := by
  unfold Call.pending
  cases c.phase <;> simp [eq_comm]

/-- A new call is made; the read or the write of call `n` is executed. -/
inductive Act (ω : Type*) where
  | call (o : ω)
  | read (n : Nat)
  | write (n : Nat)
  deriving DecidableEq, Repr

/-- What is left of a call whose edit came out as `r`. -/
def afterRead (r : Option σ) : Phase σ :=
  match r with
  | some v => .writing v
  | none => .done

def step (edit : ω → σ → Option σ) (s : State σ ω) : Act ω → Option (State σ ω)
  | .call o => some { s with calls := s.calls ++ [⟨o, .reading⟩] }
  | .read n =>
    match s.calls[n]? with
    | some ⟨o, .reading⟩ =>
      some { s with calls := s.calls.set n ⟨o, afterRead (edit o s.store)⟩ }
    | _ => none
  | .write n =>
    match s.calls[n]? with
    | some ⟨o, .writing v⟩ => some { store := v, calls := s.calls.set n ⟨o, .done⟩ }
    | _ => none

def State.init (v : σ) : State σ ω := ⟨v, []⟩

/-- Every call is over. -/
def State.Done (s : State σ ω) : Prop := ∀ c ∈ s.calls, c.phase = .done

instance [DecidableEq σ] (s : State σ ω) : Decidable s.Done :=
  inferInstanceAs (Decidable (∀ c ∈ s.calls, c.phase = .done))

variable {edit : ω → σ → Option σ} {s t : State σ ω} {a : Act ω}

/-- Everything a step can do. -/
theorem step_cases (h : step edit s a = some t) :
    (∃ o, a = .call o ∧ t = { s with calls := s.calls ++ [⟨o, .reading⟩] }) ∨
    (∃ n o, a = .read n ∧ s.calls[n]? = some ⟨o, .reading⟩ ∧
      t = { s with calls := s.calls.set n ⟨o, afterRead (edit o s.store)⟩ }) ∨
    (∃ n o v, a = .write n ∧ s.calls[n]? = some ⟨o, .writing v⟩ ∧
      t = { store := v, calls := s.calls.set n ⟨o, .done⟩ }) := by
  cases a with
  | call o => exact .inl ⟨o, rfl, by simpa [step] using h.symm⟩
  | read n =>
    simp only [step] at h
    split at h
    · next o hn => exact .inr (.inl ⟨n, o, rfl, hn, by simpa using h.symm⟩)
    · cases h
  | write n =>
    simp only [step] at h
    split at h
    · next o v hn => exact .inr (.inr ⟨n, o, v, rfl, hn, by simpa using h.symm⟩)
    · cases h

/-- The call made last reads, and writes what its edit came out as. -/
theorem read_last {calls : List (Call σ ω)} {o : ω} {u v : σ} (h : edit o u = some v) :
    step edit ⟨u, calls ++ [⟨o, .reading⟩]⟩ (.read calls.length) =
      some ⟨u, calls ++ [⟨o, .writing v⟩]⟩ := by
  simp only [step, List.getElem?_concat_length, set_at, h, afterRead]

theorem write_last (edit : ω → σ → Option σ) (calls : List (Call σ ω)) (o : ω) (u v : σ) :
    step edit ⟨u, calls ++ [⟨o, .writing v⟩]⟩ (.write calls.length) =
      some ⟨v, calls ++ [⟨o, .done⟩]⟩ := by
  simp only [step, List.getElem?_concat_length, set_at]

/-- Values about to be written after a read of call `n`: its own edit's, or older ones. -/
theorem writing_after_read {n : Nat} {o : ω} {r : Option σ} {c : Call σ ω} {w : σ}
    (hc : c ∈ s.calls.set n ⟨o, afterRead r⟩) (hw : c.phase = .writing w) :
    c ∈ s.calls ∨ (c.op = o ∧ r = some w) := by
  rcases List.mem_or_eq_of_mem_set hc with hc | rfl
  · exact .inl hc
  · cases r with
    | none => simp [afterRead] at hw
    | some v =>
      simp only [afterRead, Phase.writing.injEq] at hw
      exact .inr ⟨rfl, congrArg some hw⟩

/-- A value about to be written after a step was so before, or some call just read. -/
theorem writing_step {c : Call σ ω} {w : σ} (hs : step edit s a = some t) (hc : c ∈ t.calls)
    (hw : c.phase = .writing w) :
    c ∈ s.calls ∨ ∃ d ∈ s.calls, d.op = c.op ∧ edit d.op s.store = some w := by
  rcases step_cases hs with ⟨o, rfl, rfl⟩ | ⟨n, o, rfl, hn, rfl⟩ | ⟨n, o, v, rfl, hn, rfl⟩
  · rcases List.mem_append.mp hc with hc | hc
    · exact .inl hc
    · cases List.mem_singleton.mp hc; cases hw
  · rcases writing_after_read hc hw with hc | ⟨rfl, he⟩
    · exact .inl hc
    · exact .inr ⟨_, List.mem_of_getElem? hn, rfl, he⟩
  · rcases List.mem_or_eq_of_mem_set hc with hc | rfl
    · exact .inl hc
    · cases hw

/-- The operations of the calls made so far. -/
def State.ops (s : State σ ω) : List ω := s.calls.map (·.op)

theorem State.mem_ops {c : Call σ ω} (h : c ∈ s.calls) : c.op ∈ s.ops :=
  List.mem_map_of_mem h

theorem ops_set {n : Nat} {o : ω} {p q : Phase σ} (hn : s.calls[n]? = some ⟨o, p⟩) :
    (s.calls.set n ⟨o, q⟩).map (·.op) = s.ops := by
  apply List.ext_getElem? fun i => ?_
  simp only [State.ops, List.getElem?_map, List.getElem?_set]
  by_cases hi : n = i
  · subst hi
    obtain ⟨hlt, he⟩ := List.getElem?_eq_some_iff.mp hn
    simp [he, hlt]
  · simp [hi]

/-- Only a new call changes the operations. -/
theorem ops_eq (h : step edit s a = some t) (ha : ∀ o, a ≠ .call o) : t.ops = s.ops := by
  rcases step_cases h with ⟨o, rfl, rfl⟩ | ⟨n, o, rfl, hn, rfl⟩ | ⟨n, o, v, rfl, hn, rfl⟩
  · exact absurd rfl (ha o)
  · exact ops_set hn
  · exact ops_set hn

/-- Calls are only ever added. -/
theorem ops_step (h : step edit s a = some t) : ∀ o ∈ s.ops, o ∈ t.ops := by
  intro o ho
  cases a with
  | call o' =>
    cases h
    simp only [State.ops, List.map_append] at ho ⊢
    exact List.mem_append_left _ ho
  | read n => rwa [ops_eq h (fun _ hc => by cases hc)]
  | write n => rwa [ops_eq h (fun _ hc => by cases hc)]

/-! ## What every edit keeps -/

/-- `Q` holds of the stored value and of every value about to be written. -/
structure Kept (Q : σ → Prop) (s : State σ ω) : Prop where
  store : Q s.store
  writing : ∀ c ∈ s.calls, ∀ w, c.phase = .writing w → Q w

theorem Kept.init {Q : σ → Prop} {v : σ} (h : Q v) : Kept Q (State.init (ω := ω) v) :=
  ⟨h, by simp [State.init]⟩

/-- Another writer of the store, with a value that has `Q`. -/
theorem Kept.overwrite {Q : σ → Prop} (h : Kept Q s) {v : σ} (hv : Q v) :
    Kept Q { s with store := v } :=
  ⟨hv, h.writing⟩

/-- `hedit` is asked for the calls that were made only. -/
theorem Kept.step {Q : σ → Prop} (h : Kept Q s)
    (hedit : ∀ c ∈ s.calls, ∀ v w, Q v → edit c.op v = some w → Q w)
    (hs : step edit s a = some t) : Kept Q t where
  store := by
    rcases step_cases hs with ⟨o, rfl, rfl⟩ | ⟨n, o, rfl, hn, rfl⟩ | ⟨n, o, v, rfl, hn, rfl⟩
    · exact h.store
    · exact h.store
    · exact h.writing _ (List.mem_of_getElem? hn) v rfl
  writing c hc w hw := by
    rcases writing_step hs hc hw with hc | ⟨d, hd, -, he⟩
    · exact h.writing c hc w hw
    · exact hedit d hd _ _ h.store he

/-- **Every interleaving keeps what every edit keeps.** -/
theorem kept (good : ω → Prop) (Q : σ → Prop) {v₀ : σ}
    (hedit : ∀ o v w, good o → Q v → edit o v = some w → Q w)
    (h : Reach (step edit) Free (State.init v₀) t) (hgood : ∀ o ∈ t.ops, good o)
    (h0 : Q v₀) : Kept Q t := by
  refine h.invariant (I := fun s => (∀ o ∈ s.ops, good o) → Kept Q s)
    (fun _ => Kept.init h0) (fun s a u ih _ hs hu => ?_) hgood
  have hgs : ∀ o ∈ s.ops, good o := fun o ho => hu o (ops_step hs o ho)
  exact (ih hgs).step (fun c hc v w => hedit _ v w (hgs _ (State.mem_ops hc))) hs

/-! ## Calls on one key -/

/-- A write of a call with `key` finds no call without it about to write a value that
disagrees about `P`. -/
def Undisturbed (key : ω → Prop) (P : σ → Prop) (s : State σ ω) : Act ω → Prop
  | .write n => ∀ c ∈ s.calls[n]?, key c.op → ∀ v ∈ c.pending,
      ∀ d ∈ s.calls, ¬ key d.op → ∀ w ∈ d.pending, (P w ↔ P v)
  | _ => True

/-- Calls with `key` write in the order they were made. -/
def InOrder (key : ω → Prop) (s : State σ ω) : Act ω → Prop
  | .write n => ∀ c ∈ s.calls[n]?, key c.op →
      ∀ d ∈ s.calls.drop (n + 1), key d.op → d.phase ≠ .done
  | _ => True

instance (key : ω → Prop) (P : σ → Prop) [DecidablePred key] [DecidablePred P] (s : State σ ω) :
    ∀ a, Decidable (Undisturbed key P s a)
  | .write n => inferInstanceAs (Decidable (∀ c ∈ s.calls[n]?, key c.op → ∀ v ∈ c.pending,
      ∀ d ∈ s.calls, ¬ key d.op → ∀ w ∈ d.pending, (P w ↔ P v)))
  | .call _ => .isTrue trivial
  | .read _ => .isTrue trivial

instance [DecidableEq σ] (key : ω → Prop) [DecidablePred key] (s : State σ ω) :
    ∀ a, Decidable (InOrder key s a)
  | .write n => inferInstanceAs (Decidable (∀ c ∈ s.calls[n]?, key c.op →
      ∀ d ∈ s.calls.drop (n + 1), key d.op → d.phase ≠ .done))
  | .call _ => .isTrue trivial
  | .read _ => .isTrue trivial

theorem Undisturbed.not {key : ω → Prop} {P : σ → Prop} (h : Undisturbed key P s a) :
    Undisturbed key (fun v => ¬ P v) s a := by
  cases a with
  | write n => exact fun c hc hk v hv d hd hkd w hw => not_congr (h c hc hk v hv d hd hkd w hw)
  | _ => trivial

section Key

variable {key : ω → Prop} {P : σ → Prop}

/-- Calls without `key` are about to write what the store says about `P`. -/
def Agree (key : ω → Prop) (P : σ → Prop) (s : State σ ω) : Prop :=
  ∀ c ∈ s.calls, ∀ w, c.phase = .writing w → ¬ key c.op → (P w ↔ P s.store)

theorem Agree.step (h : Agree key P s)
    (hkeep : ∀ o v w, ¬ key o → edit o v = some w → (P w ↔ P v))
    (hg : Undisturbed key P s a) (hs : step edit s a = some t) : Agree key P t := by
  rcases step_cases hs with ⟨o, rfl, rfl⟩ | ⟨n, o, rfl, hn, rfl⟩ | ⟨n, o, v, rfl, hn, rfl⟩
  · intro c hc w hw hk
    rcases List.mem_append.mp hc with hc | hc
    · exact h c hc w hw hk
    · cases List.mem_singleton.mp hc; cases hw
  · intro c hc w hw hk
    rcases writing_after_read hc hw with hc | ⟨rfl, he⟩
    · exact h c hc w hw hk
    · exact hkeep _ _ _ hk he
  · intro c hc w hw hk
    rcases List.mem_or_eq_of_mem_set hc with hc | rfl
    · by_cases hko : key o
      · exact hg _ hn hko v rfl c hc hk w (Call.mem_pending.mpr hw)
      · exact (h c hc w hw hk).trans (h _ (List.mem_of_getElem? hn) v rfl hko).symm
    · cases hw

/-- Calls with `key` are about to write a value they have set `P` of. -/
def Own (key : ω → Prop) (R : ω → σ → Prop) (s : State σ ω) : Prop :=
  ∀ c ∈ s.calls, ∀ w, c.phase = .writing w → key c.op → R c.op w

theorem Own.step {R : ω → σ → Prop} (h : Own key R s)
    (hset : ∀ c ∈ s.calls, ∀ v w, key c.op → edit c.op v = some w → R c.op w)
    (hs : step edit s a = some t) : Own key R t := by
  intro c hc w hw hk
  rcases writing_step hs hc hw with hc | ⟨d, hd, hdc, he⟩
  · exact h c hc w hw hk
  · rw [← hdc] at hk ⊢
    exact hset d hd _ _ hk he

/-- Once a call with `key` is over, `P` holds of the store. -/
def Settled (key : ω → Prop) (P : σ → Prop) (s : State σ ω) : Prop :=
  ∀ c ∈ s.calls, key c.op → c.phase = .done → P s.store

theorem Settled.step (h : Settled key P s) (ha : Agree key P s)
    (ho : Own key (fun _ => P) s)
    (hnone : ∀ c ∈ s.calls, ∀ v, key c.op → edit c.op v = none → P v)
    (hs : step edit s a = some t) : Settled key P t := by
  rcases step_cases hs with ⟨o, rfl, rfl⟩ | ⟨n, o, rfl, hn, rfl⟩ | ⟨n, o, v, rfl, hn, rfl⟩
  · intro c hc hk hd
    rcases List.mem_append.mp hc with hc | hc
    · exact h c hc hk hd
    · cases List.mem_singleton.mp hc; cases hd
  · intro c hc hk hd
    rcases List.mem_or_eq_of_mem_set hc with hc | rfl
    · exact h c hc hk hd
    · cases he : edit o s.store with
      | none => exact hnone _ (List.mem_of_getElem? hn) _ hk he
      | some w => simp [he, afterRead] at hd
  · intro c hc hk hd
    have hmem := List.mem_of_getElem? hn
    by_cases hko : key o
    · exact ho _ hmem v rfl hko
    · rcases List.mem_or_eq_of_mem_set hc with hc | rfl
      · exact (ha _ hmem v rfl hko).mpr (h c hc hk hd)
      · exact absurd hk hko

/-- **Undisturbed calls that all set `P` leave it set**, once one of them is over. -/
theorem settled (good : ω → Prop) {v₀ : σ}
    (hkeep : ∀ o v w, ¬ key o → edit o v = some w → (P w ↔ P v))
    (hset : ∀ o v w, good o → key o → edit o v = some w → P w)
    (hnone : ∀ o v, good o → key o → edit o v = none → P v)
    (h : Reach (step edit) (Undisturbed key P) (State.init v₀) t)
    (hgood : ∀ o ∈ t.ops, good o) : Settled key P t := by
  have hinv : (∀ o ∈ t.ops, good o) → Agree key P t ∧ Own key (fun _ => P) t ∧ Settled key P t := by
    refine h.invariant (I := fun s => (∀ o ∈ s.ops, good o) →
      Agree key P s ∧ Own key (fun _ => P) s ∧ Settled key P s) ?_ ?_
    · intro _
      refine ⟨?_, ?_, ?_⟩ <;> intro c hc <;> simp [State.init] at hc
    · intro s a u ih hg hs hu
      have hgs : ∀ c ∈ s.calls, good c.op := fun c hc => hu _ (ops_step hs _ (State.mem_ops hc))
      obtain ⟨ha, ho, hd⟩ := ih fun o hm => hu o (ops_step hs o hm)
      exact ⟨ha.step hkeep hg hs, ho.step (fun c hc v w => hset _ v w (hgs c hc)) hs,
        hd.step ha ho (fun c hc v => hnone _ v (hgs c hc)) hs⟩
  exact (hinv hgood).2.2

/-- The last call with `key` that is over decided `P`. -/
def Decided (key : ω → Prop) (P : σ → Prop) (effect : ω → Bool) (s : State σ ω) : Prop :=
  ∀ (n : Nat) (c : Call σ ω), s.calls[n]? = some c → key c.op → c.phase = .done →
    (∀ (m : Nat) (d : Call σ ω), n < m → s.calls[m]? = some d → key d.op → d.phase ≠ .done) →
    (P s.store ↔ effect c.op = true)

/-- A call that was not over before its step does not matter to who was the last. -/
theorem none_over_of_set {calls : List (Call σ ω)} {n k : Nat} {c c' : Call σ ω}
    (hn : calls[n]? = some c) (hc : c.phase ≠ .done)
    (hlast : ∀ (m : Nat) (d : Call σ ω), k < m → (calls.set n c')[m]? = some d → key d.op →
      d.phase ≠ .done) :
    ∀ (m : Nat) (d : Call σ ω), k < m → calls[m]? = some d → key d.op → d.phase ≠ .done := by
  intro m d hm hmd hdk
  by_cases hmn : n = m
  · subst hmn
    rw [hn] at hmd
    cases hmd
    exact hc
  · exact hlast m d hm (by rwa [List.getElem?_set_ne hmn]) hdk

theorem Decided.read {effect : ω → Bool} (h : Decided key P effect s)
    (htotal : ∀ o v, edit o v ≠ none) {n : Nat} {o : ω} (hn : s.calls[n]? = some ⟨o, .reading⟩) :
    Decided key P effect
      ⟨s.store, s.calls.set n ⟨o, afterRead (edit o s.store)⟩⟩ := by
  obtain ⟨w, hw⟩ := Option.ne_none_iff_exists'.mp (htotal o s.store)
  intro k c hk hkey hd hlast
  have hkn : n ≠ k := by
    rintro rfl
    rw [List.getElem?_set_self (List.getElem?_eq_some_iff.mp hn).1] at hk
    cases hk
    simp [hw, afterRead] at hd
  rw [List.getElem?_set_ne hkn] at hk
  exact h k c hk hkey hd (none_over_of_set hn (by simp) hlast)

theorem Decided.write {effect : ω → Bool} (h : Decided key P effect s) (ha : Agree key P s)
    (ho : Own key (fun o w => P w ↔ effect o = true) s) {n : Nat} {o : ω} {v : σ}
    (hn : s.calls[n]? = some ⟨o, .writing v⟩) (hg : InOrder key s (.write n)) :
    Decided key P effect ⟨v, s.calls.set n ⟨o, .done⟩⟩ := by
  have hself : (s.calls.set n ⟨o, .done⟩)[n]? = some (⟨o, .done⟩ : Call σ ω) :=
    List.getElem?_set_self (List.getElem?_eq_some_iff.mp hn).1
  have hmem := List.mem_of_getElem? hn
  intro k c hk hkey hd hlast
  by_cases hkn : n = k
  · subst hkn
    rw [hself] at hk
    cases hk
    exact ho _ hmem v rfl hkey
  · rw [List.getElem?_set_ne hkn] at hk
    by_cases hko : key o
    · -- `k` wrote before `n`, so it was made before `n`, and `n` is over as well
      have hkn' : k < n := by
        rcases Nat.lt_trichotomy k n with h' | h' | h'
        · exact h'
        · exact absurd h'.symm hkn
        · have hck : c ∈ s.calls.drop (n + 1) := by
            refine List.mem_of_getElem? (i := k - (n + 1)) ?_
            rwa [List.getElem?_drop, show n + 1 + (k - (n + 1)) = k by omega]
          exact absurd hd (hg _ hn hko c hck hkey)
      exact absurd rfl (hlast n _ hkn' hself hko)
    · exact (ha _ hmem v rfl hko).trans
        (h k c hk hkey hd (none_over_of_set hn (by simp) hlast))

theorem Decided.step {effect : ω → Bool} (h : Decided key P effect s) (ha : Agree key P s)
    (ho : Own key (fun o w => P w ↔ effect o = true) s)
    (htotal : ∀ o v, edit o v ≠ none) (hg : InOrder key s a)
    (hs : step edit s a = some t) : Decided key P effect t := by
  rcases step_cases hs with ⟨o, rfl, rfl⟩ | ⟨n, o, rfl, hn, rfl⟩ | ⟨n, o, v, rfl, hn, rfl⟩
  · intro k c hk hkey hd hlast
    rcases Nat.lt_or_ge k s.calls.length with hlt | hge
    · rw [List.getElem?_append_left hlt] at hk
      refine h k c hk hkey hd fun m d hm hmd => hlast m d hm ?_
      rw [List.getElem?_append_left (List.getElem?_eq_some_iff.mp hmd).1]
      exact hmd
    · rw [List.getElem?_append_right hge] at hk
      cases List.mem_singleton.mp (List.mem_of_getElem? hk)
      cases hd
  · exact h.read htotal hn
  · exact h.write ha ho hn hg

/-- The last call with `key` decided `P`, once it is over. -/
theorem Decided.last {effect : ω → Bool} (h : Decided key P effect s)
    {before after : List (Call σ ω)} {c : Call σ ω} (hs : s.calls = before ++ c :: after)
    (hkey : key c.op) (hd : c.phase = .done) (hlast : ∀ d ∈ after, ¬ key d.op) :
    P s.store ↔ effect c.op = true := by
  refine h before.length c (by simp [hs]) hkey hd fun m d hm hmd hk => ?_
  rw [hs, List.getElem?_append_right (by omega)] at hmd
  obtain ⟨k, hk'⟩ : ∃ k, m - before.length = k + 1 := ⟨m - before.length - 1, by omega⟩
  rw [hk', List.getElem?_cons_succ] at hmd
  exact absurd hk (hlast d (List.mem_of_getElem? hmd))

end Key

/-! ## Calls that fail -/

/-- The read or the write of call `n` fails. -/
def fail (s : State σ ω) (n : Nat) : Option (State σ ω) :=
  match s.calls[n]? with
  | some ⟨o, .reading⟩ => some { s with calls := s.calls.set n ⟨o, .done⟩ }
  | some ⟨o, .writing _⟩ => some { s with calls := s.calls.set n ⟨o, .done⟩ }
  | _ => none

/-- Calls any of which may fail. -/
inductive Attempt (ω : Type*) where
  | act (a : Act ω)
  | fail (n : Nat)
  deriving DecidableEq, Repr

def attempt (edit : ω → σ → Option σ) (s : State σ ω) : Attempt ω → Option (State σ ω)
  | .act a => step edit s a
  | .fail n => fail s n

theorem fail_some {n : Nat} (h : fail s n = some t) :
    ∃ o p, s.calls[n]? = some ⟨o, p⟩ ∧ p ≠ .done ∧
      t = { s with calls := s.calls.set n ⟨o, .done⟩ } := by
  unfold fail at h
  split at h
  · next o hn => exact ⟨o, _, hn, by simp, by simpa using h.symm⟩
  · next o v hn => exact ⟨o, _, hn, by simp, by simpa using h.symm⟩
  · cases h

theorem fail_of {n : Nat} {o : ω} {p : Phase σ} (hn : s.calls[n]? = some ⟨o, p⟩)
    (hp : p ≠ .done) : fail s n = some { s with calls := s.calls.set n ⟨o, .done⟩ } := by
  cases p with
  | reading => simp only [fail, hn]
  | writing v => simp only [fail, hn]
  | done => exact absurd rfl hp

theorem Kept.fail {Q : σ → Prop} (h : Kept Q s) {n : Nat} (hf : Rmw.fail s n = some t) :
    Kept Q t := by
  obtain ⟨o, p, -, -, rfl⟩ := fail_some hf
  refine ⟨h.store, fun c hc w hw => ?_⟩
  rcases List.mem_or_eq_of_mem_set hc with hc | rfl
  · exact h.writing c hc w hw
  · cases hw

/-! ## Calls that come to an end -/

/-- The requests a call has yet to make. -/
def Phase.left : Phase σ → ℕ
  | .reading => 2
  | .writing _ => 1
  | .done => 0

def State.left (s : State σ ω) : ℕ := (s.calls.map (·.phase.left)).sum

theorem left_set {n : ℕ} {o : ω} {p q : Phase σ} (hn : s.calls[n]? = some ⟨o, p⟩)
    (hlt : q.left < p.left) (v : σ) : State.left ⟨v, s.calls.set n ⟨o, q⟩⟩ < s.left :=
  sum_map_set_lt (f := fun c : Call σ ω => c.phase.left) hn hlt

/-- Executing a request leaves less of the calls. -/
theorem left_step (ha : ∀ o, a ≠ .call o) (h : step edit s a = some t) : t.left < s.left := by
  rcases step_cases h with ⟨o, rfl, -⟩ | ⟨n, o, rfl, hn, rfl⟩ | ⟨n, o, v, rfl, hn, rfl⟩
  · exact absurd rfl (ha o)
  · refine left_set hn ?_ _
    cases edit o s.store <;> simp [afterRead, Phase.left]
  · exact left_set hn (show Phase.left (σ := σ) .done < _ from Nat.one_pos) _

theorem left_fail {n : ℕ} (h : fail s n = some t) : t.left < s.left := by
  obtain ⟨o, p, hn, hp, rfl⟩ := fail_some h
  refine left_set hn ?_ _
  cases p with
  | reading => exact Nat.two_pos
  | writing v => exact Nat.one_pos
  | done => exact absurd rfl hp

/-- A call that is not over has a request to execute. -/
theorem not_done_step (edit : ω → σ → Option σ) {n : ℕ} {c : Call σ ω} (hn : s.calls[n]? = some c)
    (hc : c.phase ≠ .done) :
    (c.phase = .reading ∧ ∃ t, step edit s (.read n) = some t) ∨
      ((∃ v, c.phase = .writing v) ∧ ∃ t, step edit s (.write n) = some t) := by
  obtain ⟨o, p⟩ := c
  cases p with
  | reading => exact .inl ⟨rfl, by simp only [step, hn]; exact ⟨_, rfl⟩⟩
  | writing v => exact .inr ⟨⟨v, rfl⟩, by simp only [step, hn]; exact ⟨_, rfl⟩⟩
  | done => exact absurd rfl hc

section Turn

variable {key : ω → Prop} {P : σ → Prop}

/-- The calls with `key` that are over are the first ones of them. -/
def InTurn (key : ω → Prop) (s : State σ ω) : Prop :=
  ∀ (n m : ℕ) (c d : Call σ ω), n < m → s.calls[n]? = some c → s.calls[m]? = some d →
    key c.op → key d.op → d.phase = .done → c.phase = .done

/-- A call with `key` writes once those made before it are over. -/
def Waits (key : ω → Prop) (s : State σ ω) : Act ω → Prop
  | .write n => ∀ c ∈ s.calls[n]?, key c.op →
      ∀ (m : ℕ) (d : Call σ ω), m < n → s.calls[m]? = some d → key d.op → d.phase = .done
  | _ => True

/-- Calls that wait for their turn write in order. -/
theorem InTurn.inOrder (h : InTurn key s) (hs : step edit s a = some t) : InOrder key s a := by
  cases a with
  | write n =>
    intro c hc hk d hd hdk hdone
    obtain ⟨m, hm⟩ := List.mem_iff_getElem?.mp hd
    rw [List.getElem?_drop] at hm
    have hover := h n (n + 1 + m) c d (by omega) hc hm hk hdk hdone
    rcases step_cases hs with ⟨o, hc', -⟩ | ⟨k, o, hc', -, -⟩ | ⟨k, o, v, hk', hn, -⟩
    · cases hc'
    · cases hc'
    · cases hk'
      cases Option.some.inj (hn.symm.trans hc)
      cases hover
  | _ => trivial

/-- A request changes one call, which is over only after the write it waited for. -/
theorem InTurn.step (h : InTurn key s) (htotal : ∀ o v, edit o v ≠ none) (ha : ∀ o, a ≠ .call o)
    (hg : Waits key s a) (hs : step edit s a = some t) : InTurn key t := by
  rcases step_cases hs with ⟨o, rfl, -⟩ | ⟨k, o, rfl, hk, rfl⟩ | ⟨k, o, v, rfl, hk, rfl⟩
  · exact absurd rfl (ha o)
  · obtain ⟨w, hw⟩ := Option.ne_none_iff_exists'.mp (htotal o s.store)
    rw [hw]
    intro n m c d hnm hn hm hc hd hdone
    rcases getElem?_set_some hm with ⟨-, rfl⟩ | ⟨-, hm⟩
    · cases hdone
    · rcases getElem?_set_some hn with ⟨rfl, rfl⟩ | ⟨-, hn⟩
      · cases h k m _ d hnm hk hm hc hd hdone
      · exact h n m c d hnm hn hm hc hd hdone
  · intro n m c d hnm hn hm hc hd hdone
    rcases getElem?_set_some hn with ⟨-, rfl⟩ | ⟨-, hn⟩
    · rfl
    · rcases getElem?_set_some hm with ⟨rfl, rfl⟩ | ⟨-, hm⟩
      · exact hg _ hk hd n c hnm hn hc
      · exact h n m c d hnm hn hm hc hd hdone

variable (edit key P) in
/-- **Calls that wait are never stuck**: as long as not all are over, some request may be
executed undisturbed and in its turn. -/
theorem enabled (h : ¬ s.Done) : ∃ a t, (∀ o, a ≠ .call o) ∧ Waits key s a ∧
    Undisturbed key P s a ∧ step edit s a = some t := by
  classical
  -- calls read first, then those without `key` write, then the others in their order
  by_cases hread : ∃ (n : ℕ) (c : Call σ ω), s.calls[n]? = some c ∧ c.phase = .reading
  · obtain ⟨n, c, hn, hc⟩ := hread
    rcases not_done_step edit hn (by simp [hc]) with ⟨-, t, ht⟩ | ⟨⟨v, hv⟩, -⟩
    · exact ⟨.read n, t, fun o ho => (by cases ho), trivial, trivial, ht⟩
    · simp [hc] at hv
  have hwrite : ∀ (n : ℕ) (c : Call σ ω), s.calls[n]? = some c → c.phase ≠ .done →
      ∃ t, step edit s (.write n) = some t := by
    intro n c hn hc
    rcases not_done_step edit hn hc with ⟨hreading, -⟩ | ⟨-, ht⟩
    · exact absurd ⟨n, c, hn, hreading⟩ hread
    · exact ht
  by_cases hother : ∃ (n : ℕ) (c : Call σ ω), s.calls[n]? = some c ∧ c.phase ≠ .done ∧ ¬ key c.op
  · obtain ⟨n, c, hn, hc, hk⟩ := hother
    obtain ⟨t, ht⟩ := hwrite n c hn hc
    refine ⟨.write n, t, fun o ho => (by cases ho), fun d hd hdk => ?_, fun d hd hdk => ?_, ht⟩
    · cases Option.some.inj (hn.symm.trans hd)
      exact absurd hdk hk
    · cases Option.some.inj (hn.symm.trans hd)
      exact absurd hdk hk
  have hover : ∀ (n : ℕ) (c : Call σ ω), s.calls[n]? = some c → ¬ key c.op → c.phase = .done :=
    fun n c hn hk => by_contra fun hc => hother ⟨n, c, hn, hc, hk⟩
  have hsome : ∃ (n : ℕ) (c : Call σ ω), s.calls[n]? = some c ∧ c.phase ≠ .done := by
    simp only [State.Done, not_forall] at h
    obtain ⟨c, hc, hd⟩ := h
    obtain ⟨n, hn⟩ := List.mem_iff_getElem?.mp hc
    exact ⟨n, c, hn, hd⟩
  obtain ⟨c, hn, hc⟩ := Nat.find_spec hsome
  obtain ⟨t, ht⟩ := hwrite _ c hn hc
  refine ⟨.write (Nat.find hsome), t, fun o ho => (by cases ho), ?_, ?_, ht⟩
  · intro _ _ _ m d hm hmd _
    by_contra hd
    exact Nat.find_min hsome hm ⟨d, hmd, hd⟩
  · intro _ _ _ _ _ d hd hdk w hw
    obtain ⟨m, hm⟩ := List.mem_iff_getElem?.mp hd
    have hdone := hover m d hm hdk
    rw [Call.mem_pending, hdone] at hw
    cases hw

end Turn

/-! ## Calls seen through a function -/

section Map

variable {τ υ : Type*} (f : σ → τ) (g : ω → υ)

def Phase.map : Phase σ → Phase τ
  | .reading => .reading
  | .writing v => .writing (f v)
  | .done => .done

def Call.map (c : Call σ ω) : Call τ υ := ⟨g c.op, c.phase.map f⟩

def State.map (s : State σ ω) : State τ υ := ⟨f s.store, s.calls.map (Call.map f g)⟩

def Act.map : Act ω → Act υ
  | .call o => .call (g o)
  | .read n => .read n
  | .write n => .write n

def Attempt.map : Attempt ω → Attempt υ
  | .act a => .act (a.map g)
  | .fail n => .fail n

variable {f g} {edit' : υ → τ → Option τ}

theorem calls_map {n : Nat} {o : ω} {p : Phase σ} (h : s.calls[n]? = some ⟨o, p⟩) :
    (s.map f g).calls[n]? = some ⟨g o, p.map f⟩ := by
  show (s.calls.map (Call.map f g))[n]? = _
  rw [List.getElem?_map, h]
  rfl

theorem calls_set_map (s : State σ ω) (n : Nat) (o : ω) (p : Phase σ) :
    (s.map f g).calls.set n ⟨g o, p.map f⟩ = (s.calls.set n ⟨o, p⟩).map (Call.map f g) :=
  (List.map_set (f := Call.map f g) (a := ⟨o, p⟩)).symm

theorem afterRead_map (r : Option σ) : (afterRead r).map f = afterRead (r.map f) := by
  cases r <;> rfl

/-- **Steps are seen as steps** if the edits of the value read are seen as edits. -/
theorem attempt_map (hedit : ∀ o, edit' (g o) (f s.store) = (edit o s.store).map f) {a : Attempt ω}
    (h : attempt edit s a = some t) :
    attempt edit' (s.map f g) (a.map g) = some (t.map f g) := by
  cases a with
  | act a =>
    rcases step_cases h with ⟨o, rfl, rfl⟩ | ⟨n, o, rfl, hn, rfl⟩ | ⟨n, o, v, rfl, hn, rfl⟩
    · simp only [attempt, Attempt.map, Act.map, step, State.map, List.map_append]
      rfl
    · simp only [attempt, Attempt.map, Act.map, step, calls_map hn, Phase.map]
      have hstore : (s.map f g).store = f s.store := rfl
      rw [hstore, hedit, ← afterRead_map, calls_set_map]
      rfl
    · simp only [attempt, Attempt.map, Act.map, step, calls_map hn, Phase.map]
      have hset := calls_set_map (f := f) (g := g) s n o .done
      simp only [Phase.map] at hset
      rw [hset]
      rfl
  | fail n =>
    obtain ⟨o, p, hn, hp, rfl⟩ := fail_some h
    have hset := calls_set_map (f := f) (g := g) s n o .done
    simp only [Phase.map] at hset
    have hp' : p.map f ≠ .done := by cases p <;> simp_all [Phase.map]
    simp only [attempt, Attempt.map, fail_of (calls_map hn) hp', hset]
    rfl

end Map

end Lib.Rmw
