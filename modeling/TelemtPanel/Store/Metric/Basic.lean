import Mathlib

/-!
# Metric points

Metric and traffic points are kept at several resolutions.  A raw point is one sample; a
point of a coarser tier summarises the samples of a bucket.
-/

namespace TelemtPanel.Store

/-- Resolution of a point.  An import can carry any text. -/
inductive MetricTier where
  | metricTierRaw
  | metricTierMinute
  | metricTierFive
  | metricTierQuarter
  | metricTierHour
  | metricTierDay
  | other (text : String)
deriving DecidableEq, Repr

/-- A double precision number: the rational number it denotes, if it is finite. -/
inductive Double where
  | finite (value : ℚ)
  | infinite (negative : Bool)
  | notANumber
deriving DecidableEq, Repr

structure MetricPoint where
  ts : ℤ
  value : Double
  tier : MetricTier
  max : Double
  samples : ℤ
  min : Option Double
  firstTS : ℤ
  lastTS : ℤ
  firstValue : Double
  delta : Option Double
  observedSeconds : ℤ
  gaps : ℤ
deriving DecidableEq, Repr

/-- A sample: the other fields have their zero values. -/
def MetricPoint.sample (ts : ℤ) (value : Double) : MetricPoint where
  ts := ts
  value := value
  tier := .metricTierRaw
  max := .finite 0
  samples := 0
  min := none
  firstTS := 0
  lastTS := 0
  firstValue := .finite 0
  delta := none
  observedSeconds := 0
  gaps := 0

/-- Two hours, in seconds. -/
def liveMetricRetentionSecs : ℤ := 7200

/-- One sample every five seconds. -/
def metricCap : ℕ := 7200 / 5 + 1

end TelemtPanel.Store
