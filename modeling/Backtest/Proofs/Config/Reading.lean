import Mathlib
import Backtest.Config.Settings
import Backtest.Config.Flags
import Backtest.Proofs.Data.Keyed
import Backtest.Proofs.Decimal.RoundTrip
/-!
# Reading back what the flags write

The backtest flags are written into the configuration as text and read back by the typed
readers of `Ini`. This module shows that each reader gives back the flagged value: a count
`n` within the reader's bound reads from `toString n` (`readNat_toString`, `readInt_toString`),
a double from its plain text (`readFloat_render_plain`), neither text has blanks to trim, and a
key set by a flag holds the flag's text (`get_withBacktestFlags`).

The two readers of a count, signed and unsigned, read the same digits: on a text both accept
with a positive value they agree (`readNat_eq_readInt`).
-/

namespace Backtest
namespace Config

open Text Decimal

/-! ## Counts -/

/-- The step of `accumulateDigits` and `digitsValue`. -/
def digitStep (acc : Nat) (c : Char) : Nat := acc * 10 + (c.toNat - '0'.toNat)

theorem le_foldl_digitStep : ∀ (ds : List Char) (acc : Nat), acc ≤ ds.foldl digitStep acc
  | [], _ => le_rfl
  | c :: rest, acc => le_trans (Nat.le_mul_of_pos_right acc (by norm_num) |>.trans
      (Nat.le_add_right _ _)) (le_foldl_digitStep rest (digitStep acc c))

/-- A run of digits whose value stays within the bound is read as its value: every
intermediate value is at most the final one. -/
theorem accumulateDigits_eq_ok {b : Nat} {ov : IntegerError} :
    ∀ (ds : List Char) (acc : Nat), (∀ c ∈ ds, c.isDigit = true) → ds.foldl digitStep acc ≤ b →
      accumulateDigits b ov acc ds = .ok (ds.foldl digitStep acc)
  | [], _, _, _ => rfl
  | c :: rest, acc, hds, hb => by
    have hc := hds c List.mem_cons_self
    have hnext : acc * 10 + (c.toNat - '0'.toNat) ≤ b := (le_foldl_digitStep rest _).trans hb
    unfold accumulateDigits
    simp only [hc, if_true]
    rw [if_pos hnext]
    exact accumulateDigits_eq_ok rest _ (fun c' h => hds c' (List.mem_cons_of_mem c h)) hb

/-- What `accumulateDigits` accepts, it reads as the value of the digits. -/
theorem eq_foldl_of_accumulateDigits {b : Nat} {ov : IntegerError} {ds : List Char} {acc n : Nat}
    (h : accumulateDigits b ov acc ds = .ok n) : n = ds.foldl digitStep acc := by
  induction ds generalizing acc with
  | nil =>
    simp only [accumulateDigits, Except.ok.injEq] at h
    exact h.symm
  | cons c rest ih =>
    unfold accumulateDigits at h
    dsimp only at h
    split_ifs at h
    exact ih h

/-- A plus sign is not a digit. -/
theorem accumulateDigits_plus (b : Nat) (ov : IntegerError) (acc : Nat) (ds : List Char) :
    accumulateDigits b ov acc ('+' :: ds) = .error .invalidDigit := by
  simp [accumulateDigits, show ('+' : Char).isDigit = false by decide]

theorem toList_toString_eq_cons (n : Nat) :
    ∃ c rest, (toString n).toList = c :: rest ∧ c ≠ '+' ∧ c ≠ '-' := by
  obtain ⟨c, rest, hcr⟩ := List.exists_cons_of_ne_nil (toList_toString_ne_nil n)
  have hc : c.isDigit = true := isDigit_of_mem_toString (by rw [hcr]; exact List.mem_cons_self)
  refine ⟨c, rest, hcr, ?_, ?_⟩ <;> rintro rfl <;> revert hc <;> decide

theorem accumulateDigits_toString {b : Nat} {n : Nat} (h : n ≤ b) (ov : IntegerError) :
    accumulateDigits b ov 0 (toString n).toList = .ok n := by
  have hval : (toString n).toList.foldl digitStep 0 = n := digitsValue_toString n
  rw [accumulateDigits_eq_ok _ _ (fun _ => isDigit_of_mem_toString) (by rw [hval]; exact h), hval]

/-- The digits of `n` read as `n` when `n` is within the bound. -/
theorem readNat_toString {b n : Nat} (h : n ≤ b) : readNat b (toString n) = .ok n := by
  obtain ⟨c, rest, hcr, hplus, hminus⟩ := toList_toString_eq_cons n
  have hacc := accumulateDigits_toString h .tooLarge
  unfold readNat
  rw [hcr] at hacc ⊢
  split <;> simp_all

/-- The digits of `n` read as the signed `n` when `n` is within the bound. -/
theorem readInt_toString {b n : Nat} (h : n ≤ b) : readInt b (toString n) = .ok (n : Int) := by
  obtain ⟨c, rest, hcr, hplus, hminus⟩ := toList_toString_eq_cons n
  have hacc := accumulateDigits_toString h .tooLarge
  unfold readInt
  rw [hcr] at hacc ⊢
  split <;> simp_all [Functor.map, Except.map]

/-- The unsigned reader reads the digits after an optional plus sign. -/
theorem readNat_eq_ok {b : Nat} {t : String} {n : Nat} (h : readNat b t = .ok n) :
    ∃ ds, (t.toList = '+' :: ds ∨ t.toList = ds) ∧ accumulateDigits b .tooLarge 0 ds = .ok n := by
  unfold readNat at h
  split at h
  · cases h
  · cases h
  · cases h
  · rename_i rest _ ht
    exact ⟨rest, Or.inl ht, h⟩
  · exact ⟨t.toList, Or.inr rfl, h⟩

theorem map_eq_ok_iff {ε α β : Type} {x : Except ε α} {f : α → β} {b : β} :
    f <$> x = .ok b ↔ ∃ a, x = .ok a ∧ f a = b := by
  cases x <;> simp [Functor.map, Except.map]

/-- The signed reader reads a positive value from the digits after an optional plus sign. -/
theorem readInt_eq_ok {b : Nat} {t : String} {v : Int} (h : readInt b t = .ok v) (hv : 0 < v) :
    ∃ ds, (t.toList = '+' :: ds ∨ t.toList = ds) ∧
      accumulateDigits b .tooLarge 0 ds = .ok v.toNat := by
  unfold readInt at h
  split at h
  · cases h
  · cases h
  · cases h
  · rename_i rest _ ht
    obtain ⟨n, hn, rfl⟩ := map_eq_ok_iff.mp h
    exact ⟨rest, Or.inl ht, hn⟩
  · -- a minus sign gives a value of at most zero: the digits after it read as a natural number
    rename_i rest _ _
    obtain ⟨n, hn, rfl⟩ := map_eq_ok_iff.mp h
    have hnn : 0 ≤ n := by
      revert hn
      cases accumulateDigits (b + 1) .tooSmall 0 rest with
      | error e => intro hn; cases hn
      | ok m =>
        intro hn
        simp only [bind, Except.bind, pure, Except.pure, Except.ok.injEq] at hn
        omega
    omega
  · obtain ⟨n, hn, rfl⟩ := map_eq_ok_iff.mp h
    exact ⟨t.toList, Or.inr rfl, hn⟩

/-- A text that both readers of a count accept, the signed one with a positive value, has
one value: the two read the same digits. -/
theorem readNat_eq_readInt {b b' : Nat} {t : String} {v : Int} {w : Nat}
    (hw : readNat b t = .ok w) (hv : readInt b' t = .ok v) (hpos : 0 < v) : (w : Int) = v := by
  obtain ⟨ds, hds, hacc⟩ := readNat_eq_ok hw
  obtain ⟨ds', hds', hacc'⟩ := readInt_eq_ok hv hpos
  have hsame : ds = ds' := by
    rcases hds with h | h <;> rcases hds' with h' | h'
    · rw [h] at h'; exact (List.cons.inj h').2
    · -- the unsigned reader would have read the plus sign as a digit
      rw [h] at h'; rw [← h', accumulateDigits_plus] at hacc'; cases hacc'
    · rw [h'] at h; rw [← h, accumulateDigits_plus] at hacc; cases hacc
    · rw [← h, ← h']
  subst hsame
  rw [eq_foldl_of_accumulateDigits hacc, ← eq_foldl_of_accumulateDigits hacc']
  omega

/-! ## Texts without blanks -/

/-- Printable ASCII characters other than the space are not blanks. -/
theorem isBlank_of_printable {c : Char} (h1 : 33 ≤ c.toNat) (h2 : c.toNat ≤ 126) :
    isBlank c = false := by
  unfold isBlank blankPoints
  simp
  omega

theorem isBlank_of_isDigit {c : Char} (h : c.isDigit = true) : isBlank c = false := by
  simp only [Char.isDigit, Bool.and_eq_true, decide_eq_true_eq] at h
  exact isBlank_of_printable (le_trans (by decide) h.1) (le_trans h.2 (by decide))

theorem dropWhile_isBlank_eq_self {l : List Char} (h : ∀ c ∈ l, isBlank c = false) :
    l.dropWhile isBlank = l := by
  cases l with
  | nil => rfl
  | cons c rest => simp [h c List.mem_cons_self]

/-- A text without blanks is its own trimming. -/
theorem trimBlanks_eq_self {s : String} (h : ∀ c ∈ s.toList, isBlank c = false) :
    trimBlanks s = s := by
  unfold trimBlanks
  rw [dropWhile_isBlank_eq_self h, dropWhile_isBlank_eq_self (by simpa using h),
    List.reverse_reverse, String.ofList_toList]

theorem trimBlanks_toString (n : Nat) : trimBlanks (toString n) = toString n :=
  trimBlanks_eq_self fun _ h => isBlank_of_isDigit (isDigit_of_mem_toString h)

theorem toString_ne_empty (n : Nat) : toString n ≠ "" := by
  intro h
  apply toList_toString_ne_nil n
  rw [h]
  rfl

/-- The positional text of digits adds only zeros and a point to them. -/
theorem mem_positionalText {ds : String} {p : Int} {c : Char}
    (h : c ∈ (positionalText false ds p).toList) : c ∈ ds.toList ∨ c = '0' ∨ c = '.' := by
  unfold positionalText at h
  simp only [Bool.false_eq_true, ↓reduceIte, String.append_empty] at h
  split_ifs at h
  · simp only [String.toList_append, String.toList_ofList, List.mem_append,
      List.mem_replicate] at h
    rw [show ("0." : String).toList = ['0', '.'] from rfl] at h
    simp only [List.mem_cons, List.not_mem_nil, or_false] at h
    rcases h with ((h | h) | h) | h
    · exact Or.inr (Or.inl h)
    · exact Or.inr (Or.inr h)
    · exact Or.inr (Or.inl h.2)
    · exact Or.inl h
  · simp only [String.toList_append, String.toList_ofList, List.mem_append] at h
    rw [show (".").toList = ['.'] from rfl, List.mem_singleton] at h
    rcases h with (h | h) | h
    · exact Or.inl (List.mem_of_mem_take h)
    · exact Or.inr (Or.inr h)
    · exact Or.inl (List.mem_of_mem_drop h)
  · simp only [String.toList_append, String.toList_ofList, List.mem_append,
      List.mem_replicate] at h
    rcases h with h | h
    · exact Or.inl h
    · exact Or.inr (Or.inl h.2)

/-- The plain text of a double has no blanks: it is made of digits, a point, a minus sign and
the letters of `NaN` and `inf`. -/
theorem isBlank_of_mem_render_plain (x : Float) :
    ∀ c ∈ (plain.render x).toList, isBlank c = false := by
  rcases hx : classify x with _ | s | ⟨s, m, q⟩
  · -- `NaN`
    simp only [Layout.render, hx, plain]
    rw [show ("NaN" : String).toList = ['N', 'a', 'N'] from rfl]
    simp [isBlank, blankPoints]
  · -- `inf` or `-inf`
    simp only [Layout.render, hx, plain]
    cases s
    · rw [if_neg Bool.false_ne_true, show ("inf" : String).toList = ['i', 'n', 'f'] from rfl]
      simp [isBlank, blankPoints]
    · rw [if_pos rfl, show ("-inf" : String).toList = ['-', 'i', 'n', 'f'] from rfl]
      simp [isBlank, blankPoints]
  · have hsign : ∀ c ∈ (if s then "-" else "").toList, isBlank c = false := by
      cases s
      · intro c h
        cases h
      · rw [if_pos rfl, show ("-" : String).toList = ['-'] from rfl]
        simp [isBlank, blankPoints]
    by_cases hm : m = 0
    · -- a zero: the sign, then `0`
      subst hm
      simp only [Layout.render, hx, plain, if_true, String.toList_append, List.forall_mem_append]
      refine ⟨hsign, ?_⟩
      rw [show ("0" : String).toList = ['0'] from rfl]
      simp [isBlank, blankPoints]
    · -- the sign, then digits, zeros and a point
      rw [render_plain_finite hx hm, String.toList_append, List.forall_mem_append]
      refine ⟨hsign, fun c h => ?_⟩
      rcases mem_positionalText h with h | rfl | rfl
      · exact isBlank_of_isDigit (isDigit_of_mem_toString h)
      · decide
      · decide

theorem trimBlanks_render_plain (x : Float) : trimBlanks (plain.render x) = plain.render x :=
  trimBlanks_eq_self (isBlank_of_mem_render_plain x)

theorem render_plain_ne_empty (x : Float) : plain.render x ≠ "" := by
  intro h
  have hread := readFloat_render_plain x
  rw [h] at hread
  cases hread

/-! ## Keys set by the flags -/

namespace Ini

theorem get_empty (part key : String) : Ini.empty.get part key = none := rfl

/-- A key read after a key is set: the set value when both names fold alike, the old value
otherwise. -/
theorem get_set (ini : Ini) (part key v part' key' : String) :
    (ini.set part key v).get part' key' =
      if foldName part' = foldName part ∧ foldName key' = foldName key then some v
      else ini.get part' key' := by
  unfold set store get
  by_cases hp : foldName part' = foldName part
  · by_cases hk : foldName key' = foldName key
    · simp [hp, hk]
    · -- the part is rebuilt, but the key is another one
      cases hpart : ini.parts.get? (foldName part) <;> simp [hp, hk, hpart]
      rfl
  · simp [hp]

theorem get_setSome (ini : Ini) (part key : String) (o : Option String) (part' key' : String) :
    (ini.setSome part key o).get part' key' =
      if foldName part' = foldName part ∧ foldName key' = foldName key then
        o.or (ini.get part' key')
      else ini.get part' key' := by
  cases o with
  | none => simp [setSome]
  | some v => simp [setSome, get_set]

/-- Setting keys of other names leaves a key as it was. -/
theorem get_foldl_setSome_of_not_mem (part key : String) :
    ∀ (l : List (String × Option String)) (ini : Ini),
      foldName key ∉ l.map (fun e => foldName e.1) →
      (l.foldl (fun acc (k, v) => acc.setSome part k v) ini).get part key = ini.get part key
  | [], _, _ => rfl
  | (k, v) :: rest, ini, h => by
    simp only [List.map_cons, List.mem_cons, not_or] at h
    rw [List.foldl_cons, get_foldl_setSome_of_not_mem part key rest _ h.2, get_setSome,
      if_neg (fun hk => h.1 hk.2)]

/-- After setting keys of pairwise different names, a key holds the value set for it. -/
theorem get_foldl_setSome (part key : String) (v : Option String) :
    ∀ (l : List (String × Option String)) (ini : Ini), (l.map fun e => foldName e.1).Nodup →
      (key, v) ∈ l →
      (l.foldl (fun acc (k, v) => acc.setSome part k v) ini).get part key = v.or (ini.get part key)
  | [], _, _, h => absurd h List.not_mem_nil
  | (k, w) :: rest, ini, hnd, h => by
    simp only [List.map_cons, List.nodup_cons, List.mem_map] at hnd
    rw [List.foldl_cons]
    rcases List.mem_cons.mp h with heq | hrest
    · -- the key is this one, and no later entry has its name
      simp only [Prod.mk.injEq] at heq
      obtain ⟨rfl, rfl⟩ := heq
      rw [get_foldl_setSome_of_not_mem part key rest _ (by simpa using hnd.1), get_setSome,
        if_pos ⟨rfl, rfl⟩]
    · rw [get_foldl_setSome part key v rest _ hnd.2 hrest, get_setSome,
        if_neg (fun hk => hnd.1 ⟨(key, v), hrest, hk.2⟩)]

end Ini

/-- The names of the backtest flags fold to pairwise different keys. -/
theorem nodup_entries_keys (a : BacktestFlags) :
    (a.entries.map fun e => foldName e.1).Nodup := by
  rw [show a.entries.map (fun e => foldName e.1) =
    ["execution", "transaction_cost", "profit_take", "stop_loss", "time_period",
      "minibatch_size", "seed", "return_type"].map foldName from rfl]
  decide +kernel

/-- Over an empty configuration, a backtest key holds the text its flag writes. -/
theorem get_withBacktestFlags (a : BacktestFlags) {k : String} {v : Option String}
    (h : (k, v) ∈ a.entries) : (Ini.empty.withBacktestFlags a).get "backtest" k = v := by
  unfold Ini.withBacktestFlags
  rw [Ini.get_foldl_setSome "backtest" k v _ _ (nodup_entries_keys a) h, Ini.get_empty,
    Option.or_none]

/-! ## Typed values -/

namespace Ini

section Typed
variable {α β ε : Type} {read : String → Except ε α} {message : ε → String} {ini : Ini}
  {part key : String}

/-- A key that holds the text `f v` of a value, nonblank and untrimmed, reads as `g v` when
the reader takes `f v` to `g v`; an absent key reads as nothing. -/
theorem typed_eq_ok {f : β → String} {g : β → α} {o : Option β} (hget : ini.get part key = o.map f)
    (hread : ∀ v ∈ o, read (f v) = .ok (g v)) (htrim : ∀ v, trimBlanks (f v) = f v)
    (hne : ∀ v, f v ≠ "") : ini.typed read message part key = .ok (o.map g) := by
  unfold typed hasValue
  cases o with
  | none => simp [hget]
  | some v => simp [hget, htrim v, hne v, hread v rfl]

end Typed

theorem real_eq_ok {ini : Ini} {part key : String} {o : Option Float}
    (hget : ini.get part key = o.map plain.render) : ini.real part key = .ok o := by
  unfold real
  rw [show o = o.map id by simp]
  exact typed_eq_ok hget (fun x _ => readFloat_render_plain x) trimBlanks_render_plain
    render_plain_ne_empty

theorem size_eq_ok {ini : Ini} {part key : String} {o : Option Nat}
    (hget : ini.get part key = o.map toString) (hb : ∀ n ∈ o, n ≤ Size.max) :
    ini.size part key = .ok o := by
  unfold size readSize
  rw [show o = o.map id by simp]
  exact typed_eq_ok hget (fun n hn => readNat_toString (hb n hn)) trimBlanks_toString
    toString_ne_empty

theorem int64_eq_ok {ini : Ini} {part key : String} {o : Option Nat}
    (hget : ini.get part key = o.map toString) (hb : ∀ n ∈ o, n ≤ int64Max) :
    ini.int64 part key = .ok (o.map (fun n : Nat => (n : Int))) := by
  unfold int64 readInt64
  exact typed_eq_ok (o := o) hget (fun n hn => readInt_toString (hb n hn)) trimBlanks_toString
    toString_ne_empty

end Ini

end Config
end Backtest
