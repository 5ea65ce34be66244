import Kitchen.Proofs.Layers
import Mathlib.Order.Bounds.Basic

namespace Kitchen

-- A length of time as words hold it: whole seconds, and less than a second in nanoseconds.
structure Duration where
  seconds : UInt64
  nanos : UInt32
  part : nanos.toNat < 1000000000

namespace Duration

def span (d : Duration) : Span := .ofSeconds d.seconds.toNat d.nanos.toNat

-- The whole milliseconds. Those of the longest time need more than 64 bits.
def millis (d : Duration) : BitVec 128 :=
  d.seconds.toBitVec.setWidth 128 * 1000 + (d.nanos / 1000000).toBitVec.setWidth 128

-- A number in 64 bits, or the greatest that fits if it does not.
def held (n : BitVec 128) : UInt64 :=
  if n.toNat ≤ maxWord then ⟨n.setWidth 64⟩ else .ofNat maxWord

theorem toNat_rest (ms : UInt64) :
    ((ms % 1000).toUInt32 * 1000000).toNat = ms.toNat % 1000 * 1000000 := by
  simp only [UInt32.toNat_mul, UInt64.toNat_toUInt32, UInt64.toNat_mod, UInt64.reduceToNat,
    UInt32.reduceToNat]
  omega

def ofMillis (ms : UInt64) : Duration where
  seconds := ms / 1000
  nanos := (ms % 1000).toUInt32 * 1000000
  part := by
    rw [toNat_rest]
    omega

theorem toNat_millis (d : Duration) : d.millis.toNat = d.span.millis := by
  have seconds := d.seconds.toNat_lt
  have nanos := d.nanos.toNat_lt
  simp only [millis, span, Span.ofSeconds, Span.millis, BitVec.toNat_add, BitVec.toNat_mul,
    BitVec.toNat_setWidth, UInt64.toNat_toBitVec, UInt32.toNat_toBitVec, UInt32.toNat_div,
    UInt32.reduceToNat, BitVec.reduceToNat]
  omega

theorem toNat_held (n : BitVec 128) : (held n).toNat = min n.toNat maxWord := by
  unfold held
  split
  case isTrue fits =>
    have word : maxWord < 2 ^ 64 := by decide
    have same : (n.setWidth 64).toNat = n.toNat := by
      rw [BitVec.toNat_setWidth]
      exact Nat.mod_eq_of_lt (by omega)
    rw [← UInt64.toNat_toBitVec, same]
    exact (Nat.min_eq_left fits).symm
  case isFalse beyond =>
    have word : (UInt64.ofNat maxWord).toNat = maxWord := rfl
    rw [word]
    omega

theorem span_ofMillis (ms : UInt64) : (ofMillis ms).span = .ofMillis ms.toNat := by
  simp only [span, ofMillis, Span.ofSeconds, Span.ofMillis, toNat_rest, UInt64.toNat_div,
    UInt64.reduceToNat, Span.mk.injEq]
  omega

-- The settings for workers and a time, and the time that is read off them, in words.
def settings (d : Duration) (workers : Nat) : Settings := .ofTimeout workers d.span

def kept (d : Duration) : Duration := ofMillis (held d.millis)

theorem toNat_held_millis (d : Duration) (workers : Nat) :
    (held d.millis).toNat = (d.settings workers).clientTimeoutMs := by
  rw [toNat_held, toNat_millis]
  rfl

theorem span_kept (d : Duration) (workers : Nat) :
    d.kept.span = (d.settings workers).clientTimeout := by
  rw [kept, span_ofMillis, toNat_held_millis d workers]
  rfl

end Duration

namespace Settings

variable {w : Nat} {t u : Span}

theorem isGreatest_ofTimeout (w : Nat) (t : Span) :
    IsGreatest {ms | ms ≤ maxWord ∧ (Span.ofMillis ms).nanos ≤ t.nanos}
      (ofTimeout w t).clientTimeoutMs := by
  constructor
  · refine ⟨Nat.min_le_right _ _, ?_⟩
    have cut : (ofTimeout w t).clientTimeoutMs ≤ t.nanos / 1000000 := Nat.min_le_left _ _
    simp only [Span.ofMillis]
    omega
  · rintro ms ⟨word, below⟩
    have cut : ms ≤ t.nanos / 1000000 := by
      simp only [Span.ofMillis] at below
      omega
    exact Nat.le_min.mpr ⟨cut, word⟩

theorem clientTimeout_le (w : Nat) (t : Span) : (ofTimeout w t).clientTimeout.nanos ≤ t.nanos :=
  (isGreatest_ofTimeout w t).1.2

-- The next millisecond is too late, or does not fit in a word.
theorem lt_clientTimeout (short : t.nanos < (Span.ofMillis (maxWord + 1)).nanos) :
    t.nanos < (ofTimeout w t).clientTimeout.nanos + (Span.ofMillis 1).nanos := by
  by_contra late
  have next : (ofTimeout w t).clientTimeoutMs + 1 ≤ maxWord ∧
      (Span.ofMillis ((ofTimeout w t).clientTimeoutMs + 1)).nanos ≤ t.nanos := by
    simp only [clientTimeout, Span.ofMillis, maxWord] at late short ⊢
    omega
  have := (isGreatest_ofTimeout w t).2 next
  omega

theorem clientTimeout_mono (w : Nat) (le : t.nanos ≤ u.nanos) :
    (ofTimeout w t).clientTimeout.nanos ≤ (ofTimeout w u).clientTimeout.nanos := by
  have below := (isGreatest_ofTimeout w t).mono (isGreatest_ofTimeout w u)
    fun ms reached => ⟨reached.1, reached.2.trans le⟩
  exact Nat.mul_le_mul_right 1000000 below

theorem ofTimeout_clientTimeout (w : Nat) (t : Span) :
    ofTimeout w (ofTimeout w t).clientTimeout = ofTimeout w t := by
  have word : (ofTimeout w t).clientTimeoutMs ≤ maxWord := (isGreatest_ofTimeout w t).1.1
  have same : (ofTimeout w (ofTimeout w t).clientTimeout).clientTimeoutMs =
      (ofTimeout w t).clientTimeoutMs :=
    (isGreatest_ofTimeout w _).unique ⟨⟨word, Nat.le_refl _⟩, fun ms reached =>
      Nat.le_of_mul_le_mul_right reached.2 (by decide)⟩
  simpa [ofTimeout] using same

theorem ofTimeout_zero_iff :
    (ofTimeout w t).clientTimeoutMs = 0 ↔ t.nanos < (Span.ofMillis 1).nanos := by
  simp only [ofTimeout, Span.millis, Span.ofMillis, maxWord]
  omega

theorem fit_ofTimeout (workers : 1 ≤ w) (time : (Span.ofMillis 1).nanos ≤ t.nanos) :
    (ofTimeout w t).Fit := by
  have some : (ofTimeout w t).clientTimeoutMs ≠ 0 := fun none =>
    absurd (ofTimeout_zero_iff.mp none) (by omega)
  have level : 'i' ∈ LogSettings.default.level.toList := by decide
  exact ⟨workers, by omega, 'i', level, by decide⟩

end Settings

-- The start of a kitchen with such settings.

namespace Engine

variable {w : Nat} {t : Span} {stations : List String}

theorem launch_unstaffed (none : w = 0) : launch (.ofTimeout w t) stations =
    .error (.config (.invalidValue "workers" "0" "at least one worker is required")) :=
  launch_refused (Settings.refused_workers none)

theorem launch_short (workers : 1 ≤ w) (short : t.nanos < (Span.ofMillis 1).nanos) :
    launch (.ofTimeout w t) stations = .error (.config
      (.invalidValue "client_timeout_ms" "0" "pickup timeout must be at least 1ms")) :=
  launch_refused (Settings.refused_timeout workers (Settings.ofTimeout_zero_iff.mpr short))

theorem launch_long (workers : 1 ≤ w) (time : (Span.ofMillis 1).nanos ≤ t.nanos)
    (some : stations ≠ []) :
    ∃ begun, launch (.ofTimeout w t) stations = .ok (.opened stations w, begun) :=
  ⟨_, launch_valid (Settings.accepted (Settings.fit_ofTimeout workers time)) some⟩

theorem launch_refused_iff (some : stations ≠ []) :
    (∃ error, launch (.ofTimeout w t) stations = .error (.config error)) ↔
      w = 0 ∨ t.nanos < (Span.ofMillis 1).nanos := by
  constructor
  · rintro ⟨error, refused⟩
    by_contra fit
    obtain ⟨workers, time⟩ := not_or.mp fit
    obtain ⟨begun, started⟩ := launch_long (Nat.pos_of_ne_zero workers) (Nat.le_of_not_lt time) some
    rw [started] at refused
    cases refused
  · intro unfit
    by_cases none : w = 0
    · exact ⟨_, launch_unstaffed none⟩
    · exact ⟨_, launch_short (Nat.pos_of_ne_zero none) (unfit.resolve_left none)⟩

end Engine

open Engine

-- The time of the settings is the greatest number of whole milliseconds that fits in 64 bits and is
-- not above the time that was asked for, and the words by which it is computed hold every number on
-- the way. So it is never longer, shorter by less than a millisecond unless nothing longer fits,
-- longer for a longer time, and the same when it is asked for again. A kitchen with stations refuses
-- such settings exactly if there are no workers or if the time is below a millisecond, and says so of
-- the workers first.
theorem timeout_rounded_down (w : Nat) (d : Duration) :
    (d.millis.toNat = d.span.millis ∧
      (Duration.held d.millis).toNat = (d.settings w).clientTimeoutMs ∧
      d.kept.span = (d.settings w).clientTimeout) ∧
    IsGreatest {ms | ms ≤ maxWord ∧ (Span.ofMillis ms).nanos ≤ d.span.nanos}
      (d.settings w).clientTimeoutMs ∧
    (d.settings w).clientTimeout.nanos ≤ d.span.nanos ∧
    (d.span.nanos < (Span.ofMillis (maxWord + 1)).nanos →
      d.span.nanos - (d.settings w).clientTimeout.nanos < (Span.ofMillis 1).nanos) ∧
    (∀ e : Duration, d.span.nanos ≤ e.span.nanos →
      (d.settings w).clientTimeout.nanos ≤ (e.settings w).clientTimeout.nanos) ∧
    .ofTimeout w (d.settings w).clientTimeout = d.settings w ∧
    ∀ stations, stations ≠ [] →
      ((∃ error, launch (d.settings w) stations = .error (.config error)) ↔
        w = 0 ∨ d.span.nanos < (Span.ofMillis 1).nanos) ∧
      (w = 0 → launch (d.settings w) stations =
        .error (.config (.invalidValue "workers" "0" "at least one worker is required"))) ∧
      (1 ≤ w → d.span.nanos < (Span.ofMillis 1).nanos → launch (d.settings w) stations =
        .error (.config (.invalidValue "client_timeout_ms" "0"
          "pickup timeout must be at least 1ms"))) ∧
      (1 ≤ w → (Span.ofMillis 1).nanos ≤ d.span.nanos →
        ∃ begun, launch (d.settings w) stations = .ok (.opened stations w, begun)) := by
  have below : (d.settings w).clientTimeout.nanos ≤ d.span.nanos := Settings.clientTimeout_le w d.span
  have near : d.span.nanos < (Span.ofMillis (maxWord + 1)).nanos →
      d.span.nanos - (d.settings w).clientTimeout.nanos < (Span.ofMillis 1).nanos :=
    fun short => Nat.sub_lt_left_of_lt_add below (Settings.lt_clientTimeout short)
  refine ⟨⟨d.toNat_millis, d.toNat_held_millis w, d.span_kept w⟩,
    Settings.isGreatest_ofTimeout w d.span, below, near, ?_,
    Settings.ofTimeout_clientTimeout w d.span, ?_⟩
  · intro e longer
    exact Settings.clientTimeout_mono w longer
  · intro stations some
    exact ⟨launch_refused_iff some, launch_unstaffed, launch_short,
      fun workers time => launch_long workers time some⟩

-- One nanosecond less than the number of milliseconds that does not fit in 64 bits any more.
def brink : Duration := ⟨18446744073709551, 615999999, by decide⟩

theorem brink_rounded :
    brink.span.nanos < (Span.ofMillis (maxWord + 1)).nanos ∧
      brink.span.nanos - (brink.settings 1).clientTimeout.nanos < (Span.ofMillis 1).nanos ∧
      (∃ begun, launch (brink.settings 1) ["burger"] = .ok (.opened ["burger"] 1, begun)) ∧
      launch (brink.settings 0) ["burger"] =
        .error (.config (.invalidValue "workers" "0" "at least one worker is required")) := by
  have short : brink.span.nanos < (Span.ofMillis (maxWord + 1)).nanos := by decide
  obtain ⟨_, _, _, near, _, _, starts⟩ := timeout_rounded_down 1 brink
  obtain ⟨_, _, _, _, _, _, refused⟩ := timeout_rounded_down 0 brink
  exact ⟨short, near short, (starts ["burger"] (by decide)).2.2.2 (by decide) (by decide),
    (refused ["burger"] (by decide)).2.1 rfl⟩

end Kitchen
