import Mathlib
import Backtest.Cache.Table
import Backtest.Cache.Blob
import Backtest.Proofs.Text.Utf8
import Backtest.Proofs.Text.Json
import Backtest.Proofs.Decimal.Bits
import Backtest.Proofs.Data.Keyed
import Backtest.Proofs.Market.Alignment
/-!
# Proofs.Cache.Stored — what the cache stores reads back

The cache keeps two kinds of file: the checksum table, as JSON text, and one blob per
instrument, as bytes. Both are read back by the cache's own readers, and its reuse of computed
data is only as good as those readers are inverse to the writers.

The table is an object of strings, so it reads back as the map its entries build; since a map
lists its keys ascending, that map is the table itself. A blob is read by readers that each take
back what the matching writer wrote, as long as every count fits the eight bytes it is given.
The data the cache computes from a price table has that property, so every blob the cache writes
decodes as the envelope it was written from.

* `ChecksumTable.parse_render_entries`, `ChecksumTable.parse_render_eq` — the table round trip;
* `Reads r enc P` — `r` reads back what `enc` writes for every value satisfying `P`; one lemma
  per reader, from `reads_readCount` to `reads_readStockData`;
* `Envelope.decode_encode` — an envelope whose fields fit decodes from its bytes as itself;
* `stockDataFits_ofCandles`, `decode_encode_ofCandles` — the blobs the cache writes.
-/

namespace Backtest
namespace Cache

open Text

variable {α β : Type}

/-! ## The checksum table -/

/-- A stored table reads back as the map its entries build, later entries of a key winning. -/
theorem ChecksumTable.parse_render_entries (t : ChecksumTable) :
    ChecksumTable.parse t.render = .ok (Keyed.ofList t.entries) := by
  unfold ChecksumTable.parse ChecksumTable.render
  simp only
  rw [Json.read?_pretty_strings]
  simp only
  -- every member holds a string, inserted in order
  unfold Keyed.ofList
  generalize (Keyed.empty : ChecksumTable) = acc
  generalize t.entries = l
  induction l generalizing acc with
  | nil => rfl
  | cons m l ih =>
    simp only [List.map_cons, List.foldlM_cons, List.foldl_cons]
    exact ih _

/-- Every table reads back as itself: its entries, inserted in order, rebuild it. -/
theorem ChecksumTable.parse_render_eq (t : ChecksumTable) :
    ChecksumTable.parse t.render = .ok t := by
  rw [ChecksumTable.parse_render_entries, Keyed.ofList_entries]

/-! ## Little-endian numbers -/

@[simp] theorem length_leBytes (w n : Nat) : (leBytes w n).length = w := by
  simp [leBytes]

/-- The bytes of a number read back as the number modulo the width. -/
theorem ofLeBytes_leBytes (w n : Nat) : ofLeBytes (leBytes w n) = n % 256 ^ w := by
  induction w generalizing n with
  | zero => simp [leBytes, ofLeBytes, Nat.mod_one]
  | succ w ih =>
    -- the lowest byte first, then the bytes of the number shifted down by one byte
    have hshift : leBytes (w + 1) n = UInt8.ofNat (n % 256) :: leBytes w (n / 256) := by
      simp only [leBytes, List.range_succ_eq_map, List.map_cons, List.map_map]
      congr 2
      · simp
      · funext k
        simp [Function.comp, Nat.pow_succ', Nat.div_div_eq_div_mul]
    rw [hshift, ofLeBytes, List.foldr_cons, ← ofLeBytes, ih,
      UInt8.toNat_ofNat_of_lt' (Nat.mod_lt _ (by decide)), Nat.pow_succ', Nat.mod_mul]

/-! ## Readers -/


theorem ok_bind {ε : Type} (a : α) (f : α → Except ε β) : (Except.ok a >>= f) = f a := rfl

/-- `r` reads back every value satisfying `P` from the bytes `enc` writes for it, and leaves
the bytes after them. -/
def Reads (r : Reader α) (enc : α → List UInt8) (P : α → Prop) : Prop :=
  ∀ x, P x → ∀ rest, r.run (enc x ++ rest) = .ok (x, rest)

theorem fixed_run {n : Nat} {bs : List UInt8} (h : bs.length = n) (rest : List UInt8) :
    (fixed n).run (bs ++ rest) = .ok (bs, rest) := by
  simp [fixed, StateT.run, h]

theorem reads_readCount : Reads readCount encodeCount (· < 2 ^ 64) := by
  intro n hn rest
  simp only [readCount, encodeCount, StateT.run_map, fixed_run (length_leBytes 8 n)]
  change Except.ok (ofLeBytes (leBytes 8 n), rest) = _
  rw [ofLeBytes_leBytes, Nat.mod_eq_of_lt (by simpa using hn)]

theorem reads_readText : Reads readText encodeText (fun s => (encodeUtf8 s).length < 2 ^ 64) := by
  intro s hs rest
  simp only [readText, encodeText, List.append_assoc, StateT.run_bind, reads_readCount _ hs,
    ok_bind]
  -- the count, then exactly its bytes, which decode to the text
  simp only [StateT.run_get, pure_bind, List.length_append, le_add_iff_nonneg_right, zero_le,
    ↓reduceIte, List.drop_left', List.take_left', decodeUtf8_encodeUtf8, bind_pure_comp,
    StateT.run_map, StateT.run_set, map_pure]
  rfl

/-- A double is stored as the eight bytes of its bits. -/
theorem reads_readFloat : Reads readFloat (fun x => leBytes 8 x.toBits.toNat) (fun _ => True) := by
  intro x _ rest
  have hbits : x.toBits.toNat % 256 ^ 8 = x.toBits.toNat :=
    Nat.mod_eq_of_lt (by simpa using x.toBits.toNat_lt)
  simp only [readFloat, StateT.run_bind, fixed_run (length_leBytes 8 _), ok_bind, StateT.run_pure,
    ofLeBytes_leBytes, hbits, UInt64.ofNat_toNat, Decimal.ofBits_toBits]
  rfl

/-- Items read one after the other, each from the bytes written for it. -/
theorem reads_readItems {r : Reader α} {enc : α → List UInt8} {P : α → Prop} (h : Reads r enc P)
    (xs : List α) (hxs : ∀ x ∈ xs, P x) (rest : List UInt8) :
    (readItems r xs.length).run (xs.flatMap enc ++ rest) = .ok (xs, rest) := by
  induction xs with
  | nil => rfl
  | cons x xs ih =>
    rw [List.length_cons, readItems, List.flatMap_cons, List.append_assoc]
    simp only [StateT.run_bind, h x (hxs x List.mem_cons_self), ok_bind,
      ih (fun y hy => hxs y (List.mem_cons_of_mem x hy)), StateT.run_pure]
    rfl

/-- A list is its count, then its items. -/
theorem reads_readList {r : Reader α} {enc : α → List UInt8} {P : α → Prop} (h : Reads r enc P) :
    Reads (readList r) (fun xs => encodeCount xs.length ++ xs.flatMap enc)
      (fun xs => xs.length < 2 ^ 64 ∧ ∀ x ∈ xs, P x) := by
  rintro xs ⟨hlen, hxs⟩ rest
  simp only [readList, List.append_assoc, StateT.run_bind, reads_readCount _ hlen, ok_bind,
    reads_readItems h xs hxs]

theorem reads_readSeries :
    Reads (readList readFloat) encodeSeries (fun xs => xs.length < 2 ^ 64) := by
  intro xs hlen rest
  exact reads_readList reads_readFloat xs ⟨hlen, fun _ _ => trivial⟩ rest

/-- A map a blob holds as it is: fewer keys than a count holds, each key's bytes countable and
each value satisfying `P`. -/
structure KeyedFits (P : α → Prop) (m : Keyed α) : Prop where
  size : m.size < 2 ^ 64
  entries : ∀ e ∈ m.entries, (encodeUtf8 e.1).length < 2 ^ 64 ∧ P e.2

/-- A map is its size, then its keys and values in turn; the reader inserts them in order. -/
theorem reads_readKeyed {r : Reader α} {f : α → List UInt8} {P : α → Prop} (h : Reads r f P) :
    Reads (readKeyed r) (encodeKeyed f) (KeyedFits P) := by
  intro m hm rest
  have hpair : Reads (do pure (← readText, ← r)) (fun e => encodeText e.1 ++ f e.2)
      (fun e => (encodeUtf8 e.1).length < 2 ^ 64 ∧ P e.2) := by
    rintro ⟨k, v⟩ ⟨hk, hv⟩ rest
    simp only [List.append_assoc, StateT.run_bind, reads_readText k hk, ok_bind, h v hv,
      StateT.run_pure]
    rfl
  simp only [readKeyed, encodeKeyed, List.append_assoc, StateT.run_bind,
    reads_readCount _ hm.size, ok_bind]
  rw [Keyed.size, reads_readItems hpair m.entries (fun e he => hm.entries e he) rest, ok_bind]
  -- the pairs are inserted in order into the empty map, which rebuilds `m`
  change Except.ok (Keyed.ofList m.entries, rest) = _
  rw [Keyed.ofList_entries]

/-- Indicator data a blob holds as it is: countable dates of countable bytes, and maps that
fit, with series of countable length. -/
structure StockDataFits (d : StockData) : Prop where
  dates : d.dates.length < 2 ^ 64 ∧ ∀ s ∈ d.dates, (encodeUtf8 s).length < 2 ^ 64
  indicators : KeyedFits (fun xs => xs.length < 2 ^ 64) d.indicators
  quantiles : KeyedFits (KeyedFits fun xs => xs.length < 2 ^ 64) d.quantiles

/-- Indicator data is its dates, its series and its quantile series, in that order. -/
theorem reads_readStockData : Reads readStockData encodeStockData StockDataFits := by
  intro d hd rest
  have hdates := reads_readList reads_readText d.dates hd.dates
  have hind := reads_readKeyed reads_readSeries d.indicators hd.indicators
  have hquant := reads_readKeyed (reads_readKeyed reads_readSeries) d.quantiles hd.quantiles
  simp only [List.append_assoc] at hdates
  simp only [readStockData, encodeStockData, List.append_assoc, StateT.run_bind, hdates, ok_bind,
    hind, hquant, StateT.run_pure]
  rfl

/-- An envelope whose version fits four bytes, whose window fits eight, and whose data fits,
decodes from its bytes as itself. -/
theorem Envelope.decode_encode {e : Envelope} (hv : e.version < 2 ^ 32) (hw : e.window < 2 ^ 64)
    (hd : StockDataFits e.data) : Envelope.decode e.encode = .ok e := by
  obtain ⟨version, window, data⟩ := e
  dsimp only at hv hw hd
  have hversion : version % 256 ^ 4 = version := Nat.mod_eq_of_lt (by simpa using hv)
  -- the version's four bytes, the window's count, then the data
  rw [Envelope.decode, Envelope.encode, ← List.append_nil (encodeStockData data), List.append_assoc,
    show leBytes 8 window = encodeCount window from rfl]
  simp only [StateT.run_bind, fixed_run (length_leBytes 4 version), ok_bind,
    reads_readCount _ hw, reads_readStockData _ hd, StateT.run_pure, ofLeBytes_leBytes, hversion]
  rfl

/-! ## The data the cache stores -/

/-- A map with a known key set fits a blob when its keys do and every binding's value fits. -/
theorem KeyedFits.of_spans {m : Keyed α} {ks : List String} {p : String → α → Prop}
    {P : α → Prop} (h : m.Spans ks p) (hks : ks.Nodup) (hlen : ks.length < 2 ^ 64)
    (hkeys : ∀ k ∈ ks, (encodeUtf8 k).length < 2 ^ 64) (hval : ∀ k v, p k v → P v) :
    KeyedFits P m := by
  refine ⟨?_, fun e he => ?_⟩
  · -- the keys are a permutation of `ks`
    have hperm := h.perm hks
    rw [Keyed.size, ← List.length_map (f := (·.1)), ← Keyed.keys, hperm.length_eq]
    exact hlen
  · have hk : e.1 ∈ m.keys := List.mem_map.mpr ⟨e, he, rfl⟩
    refine ⟨hkeys e.1 ((h.mem_keys e.1).mp hk), hval e.1 e.2 (h.lookup e.1 e.2 ?_)⟩
    exact Keyed.get?_of_mem he

theorem names_fit : ∀ k ∈ Indicator.names, (encodeUtf8 k).length < 2 ^ 64 := by
  decide +kernel

theorem labels_fit : ∀ l ∈ Quantile.labels, (encodeUtf8 l).length < 2 ^ 64 := by
  rw [StockData.labels_eq]
  decide +kernel

/-- The data the cache computes from a price table fits a blob, when the table has at most
`Size.max` candles and every date's text fewer bytes than a count holds. -/
theorem stockDataFits_ofCandles {candles : List Candle} (w : Nat)
    (hn : candles.length ≤ Size.max)
    (hdates : ∀ c ∈ candles, (encodeUtf8 c.date).length < 2 ^ 64) :
    StockDataFits (StockData.ofCandles candles w) := by
  have hb := StockData.ofCandles_built candles w
  have hmax : Size.max < 2 ^ 64 := by simp [Size.max]
  -- every series has `n - 2w` values
  have hseries : ∀ s : List Float, s.length = candles.length - 2 * w → s.length < 2 ^ 64 := by
    intro s hs
    omega
  refine ⟨⟨?_, ?_⟩, ?_, ?_⟩
  · rw [hb.dates, List.length_drop, List.length_map]
    omega
  · intro s hs
    rw [hb.dates] at hs
    obtain ⟨c, hc, rfl⟩ := List.mem_map.mp (List.mem_of_mem_drop hs)
    exact hdates c hc
  · refine KeyedFits.of_spans hb.indicators StockData.names_nodup (by decide) names_fit ?_
    rintro _ s ⟨k, -, rfl⟩
    exact hseries _ (Indicator.length_trimmedSeries k candles w hn)
  · refine KeyedFits.of_spans hb.quantiles Quantile.labels_nodup (by rw [StockData.labels_eq]; decide)
      labels_fit ?_
    intro _ inner hinner
    exact KeyedFits.of_spans hinner StockData.names_nodup (by decide) names_fit
      fun _ s hs => hseries s hs

/-- Every blob the cache writes, for a price table of at most `Size.max` candles with dates of
countable bytes and a window below `2 ^ 64`, decodes as the envelope it was written from. -/
theorem decode_encode_ofCandles {candles : List Candle} {w : Nat} (hw : w < 2 ^ 64)
    (hn : candles.length ≤ Size.max)
    (hdates : ∀ c ∈ candles, (encodeUtf8 c.date).length < 2 ^ 64) :
    Envelope.decode (Envelope.encode ⟨envelopeVersion, w, StockData.ofCandles candles w⟩) =
      .ok ⟨envelopeVersion, w, StockData.ofCandles candles w⟩ :=
  Envelope.decode_encode (show envelopeVersion < 2 ^ 32 by decide) hw
    (stockDataFits_ofCandles w hn hdates)

end Cache
end Backtest
