import Mathlib.Data.List.Nodup
import Mathlib.Data.Option.Basic
import PegKit.Settings.Decode

/-! What the entries of a table make of a record. The fold over the entries reports the first one
at fault, so the error depends on their order; whether there is one, and the record if there is
none, do not. Everything here follows from that: an entry can be thought of as the last one. -/

namespace PegKit.Settings

variable {α β ε : Type}

@[simp] theorem toOption_ok (a : α) : (.ok a : Except ε α).toOption = some a := rfl

@[simp] theorem toOption_pure (a : α) : (pure a : Except ε α).toOption = some a := rfl

@[simp] theorem toOption_error (e : ε) : (.error e : Except ε α).toOption = none := rfl

@[simp] theorem toOption_bind (x : Except ε α) (f : α → Except ε β) :
    (x >>= f).toOption = x.toOption.bind fun a => (f a).toOption := by
  cases x <;> rfl

@[simp] theorem toOption_map (f : α → β) (x : Except ε α) :
    (f <$> x).toOption = x.toOption.map f := by
  cases x <;> rfl

theorem map_eq_ok_iff {f : α → β} {x : Except ε α} {b : β} :
    f <$> x = .ok b ↔ ∃ a, x = .ok a ∧ f a = b := by
  cases x <;> simp

theorem toOption_eq_some_iff {x : Except ε α} {a : α} : x.toOption = some a ↔ x = .ok a := by
  cases x <;> simp

/-- The record that the entries make of `r`, if they all fit. -/
def filled (assign : α → String × Value → Except SettingError α) (r : α)
    (es : List (String × Value)) : Option α :=
  (es.foldlM assign r).toOption

section

variable {assign : α → String × Value → Except SettingError α} {r s : α}
  {es fs before after : List (String × Value)} {e : String × Value}

@[simp] theorem filled_nil : filled assign r [] = some r := rfl

@[simp] theorem filled_cons :
    filled assign r (e :: es) = (assign r e).toOption.bind (filled assign · es) := by
  simp [filled]

theorem filled_append :
    filled assign r (es ++ fs) = (filled assign r es).bind (filled assign · fs) := by
  simp [filled]

theorem filled_invariant (P : α → Prop) (hstart : P r)
    (hstep : ∀ e ∈ es, ∀ {r s}, assign r e = .ok s → P r → P s) (h : filled assign r es = some s) :
    P s := by
  induction es generalizing r with
  | nil => cases h; exact hstart
  | cons e es ih =>
    obtain ⟨t, hfirst, hrest⟩ := Option.bind_eq_some_iff.mp (filled_cons.symm.trans h)
    rw [toOption_eq_some_iff] at hfirst
    simp only [List.forall_mem_cons] at hstep
    exact ih (hstep.1 hfirst hstart) hstep.2 hrest

theorem filled_same {f : String × Value}
    (h : ∀ r, (assign r f).toOption = (assign r e).toOption) :
    filled assign r (before ++ f :: after) = filled assign r (before ++ e :: after) := by
  simp only [filled_append, filled_cons, h]

theorem filled_insert_ignored (h : ∀ r, assign r e = .ok r) :
    filled assign r (before ++ e :: after) = filled assign r (before ++ after) := by
  simp [filled_append, h]

theorem filled_insert_refused (h : ∀ r, (assign r e).toOption = none) :
    filled assign r (before ++ e :: after) = none := by
  simp [filled_append, h]

/-- Entries with different keys have the same effect in either order. -/
def OrderFree (assign : α → String × Value → Except SettingError α) : Prop :=
  ∀ e f : String × Value, e.1 ≠ f.1 → ∀ r,
    (assign r e).toOption.bind (fun s => (assign s f).toOption) =
      (assign r f).toOption.bind (fun s => (assign s e).toOption)

theorem filled_perm (hfree : OrderFree assign) (hperm : es.Perm fs)
    (hkeys : (es.map Prod.fst).Nodup) : filled assign r fs = filled assign r es := by
  induction hperm generalizing r with
  | nil => rfl
  | cons e _ ih => simp only [filled_cons, ih (List.nodup_cons.mp hkeys).2]
  | swap e f es =>
    have hne : f.1 ≠ e.1 := by
      intro he
      simp [he] at hkeys
    simp only [filled_cons, ← Option.bind_assoc, hfree f e hne r]
  | trans hp _ ihp ihq => rw [ihq ((hp.map Prod.fst).nodup hkeys), ihp hkeys]

theorem filled_insert (hfree : OrderFree assign)
    (hkeys : ((before ++ e :: after).map Prod.fst).Nodup) :
    filled assign r (before ++ e :: after) =
      (filled assign r (before ++ after)).bind fun s => (assign s e).toOption := by
  -- an entry may be looked at behind all others
  have hperm : (before ++ e :: after).Perm ((before ++ after) ++ [e]) :=
    List.perm_middle.trans (List.perm_append_singleton e _).symm
  rw [← filled_perm hfree hperm hkeys, filled_append]
  simp

/-- `reset key` gives the field of this key its default: it undoes an entry with this key, and no
other entry reads or sets the field. -/
structure Resets (assign : α → String × Value → Except SettingError α) (reset : String → α → α) :
    Prop where
  same : ∀ {e r s}, assign r e = .ok s → reset e.1 s = reset e.1 r
  other : ∀ {key e r s}, assign r e = .ok s → e.1 ≠ key → assign (reset key r) e = .ok (reset key s)

variable {reset : String → α → α} {key : String} {v : Value}

theorem reset_filled (hreset : Resets assign reset) (hstart : reset key r = r)
    (hkey : key ∉ es.map Prod.fst) (h : filled assign r es = some s) : reset key s = s := by
  refine filled_invariant (fun r => reset key r = r) hstart (fun e he t u hstep ht => ?_) h
  have hne : e.1 ≠ key := by
    rintro rfl
    exact hkey (List.mem_map_of_mem he)
  have hother := hreset.other hstep hne
  rw [ht, hstep] at hother
  exact (Except.ok.inj hother).symm

theorem not_mem_of_nodup (hkeys : ((before ++ (key, v) :: after).map Prod.fst).Nodup) :
    key ∉ (before ++ after).map Prod.fst := by
  rw [List.map_append, List.map_cons, List.nodup_middle, List.nodup_cons] at hkeys
  rw [List.map_append]
  exact hkeys.1

theorem filled_remove (hfree : OrderFree assign) (hreset : Resets assign reset)
    (hstart : reset key r = r) (hkeys : ((before ++ (key, v) :: after).map Prod.fst).Nodup)
    (h : filled assign r (before ++ (key, v) :: after) = some s) :
    filled assign r (before ++ after) = some (reset key s) := by
  rw [filled_insert hfree hkeys] at h
  obtain ⟨t, hrest, hlast⟩ := Option.bind_eq_some_iff.mp h
  rw [hrest, hreset.same (toOption_eq_some_iff.mp hlast),
    reset_filled hreset hstart (not_mem_of_nodup hkeys) hrest]

theorem filled_insert_default (hfree : OrderFree assign) (hreset : Resets assign reset)
    (hstart : reset key r = r) (hkeys : ((before ++ (key, v) :: after).map Prod.fst).Nodup)
    (hdefault : ∀ r, assign r (key, v) = .ok (reset key r)) :
    filled assign r (before ++ (key, v) :: after) = filled assign r (before ++ after) := by
  rw [filled_insert hfree hkeys]
  cases hrest : filled assign r (before ++ after) with
  | none => rfl
  | some s => simp [hdefault, reset_filled hreset hstart (not_mem_of_nodup hkeys) hrest]

theorem filled_replace (hfree : OrderFree assign) {v v' : Value} {change : α → α}
    (hkeys : ((before ++ (key, v) :: after).map Prod.fst).Nodup)
    (h : filled assign r (before ++ (key, v) :: after) = some s)
    (hchange : ∀ r s, assign r (key, v) = .ok s → assign r (key, v') = .ok (change s)) :
    filled assign r (before ++ (key, v') :: after) = some (change s) := by
  rw [filled_insert hfree hkeys] at h
  obtain ⟨t, hrest, hlast⟩ := Option.bind_eq_some_iff.mp h
  have hkeys' : ((before ++ (key, v') :: after).map Prod.fst).Nodup := by simpa using hkeys
  rw [filled_insert hfree hkeys', hrest, Option.bind_some,
    hchange t s (toOption_eq_some_iff.mp hlast), toOption_ok]

end

end PegKit.Settings
