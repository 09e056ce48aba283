/-
# Modules.Specs -- what a form shows of the modules

`displayName`, and the `ParamSpec` tables that the control API sends as they are.
-/
import Clumsy.Modules.Table

namespace Clumsy.Modules

set_option autoImplicit false

/-- `options` is empty but for an enumeration, where it is a list with commas. -/
structure ParamSpec where
  key     : String
  label   : String
  kind    : String
  minVal  : Int := 0
  maxVal  : Int := 0
  options : String := ""

namespace ModuleId

def displayName : ModuleId → String
  | .lag => "Lag"
  | .jitter => "Jitter"
  | .drop => "Drop"
  | .burstloss => "Burst Loss"
  | .blackout => "Blackout"
  | .throttle => "Throttle"
  | .dup => "Duplicate"
  | .ood => "Out of order"
  | .tamper => "Tamper"
  | .corrupt => "Corrupt"
  | .reset => "Set TCP RST"
  | .bandwidth => "Bandwidth"

def paramSpecs : ModuleId → List ParamSpec
  | .lag =>
      [{ key := "lag-inbound", label := "Inbound", kind := "bool" },
       { key := "lag-outbound", label := "Outbound", kind := "bool" },
       { key := "lag-time", label := "Delay (ms)", kind := "int", minVal := 0, maxVal := 15000 }]
  | .jitter =>
      [{ key := "jitter-inbound", label := "Inbound", kind := "bool" },
       { key := "jitter-outbound", label := "Outbound", kind := "bool" },
       { key := "jitter-min", label := "Min (ms)", kind := "int", minVal := 0, maxVal := 5000 },
       { key := "jitter-max", label := "Max (ms)", kind := "int", minVal := 0, maxVal := 5000 },
       { key := "jitter-dist", label := "Distribution",
          kind := "enum", options := "uniform,normal,pareto" }]
  | .drop =>
      [{ key := "drop-inbound", label := "Inbound", kind := "bool" },
       { key := "drop-outbound", label := "Outbound", kind := "bool" },
       { key := "drop-chance", label := "Chance (%)",
          kind := "percent", minVal := 0, maxVal := 100 }]
  | .burstloss =>
      [{ key := "burstloss-inbound", label := "Inbound", kind := "bool" },
       { key := "burstloss-outbound", label := "Outbound", kind := "bool" },
       { key := "burstloss-good", label := "Good drop (%)",
          kind := "percent", minVal := 0, maxVal := 100 },
       { key := "burstloss-bad", label := "Bad drop (%)",
          kind := "percent", minVal := 0, maxVal := 100 },
       { key := "burstloss-gb", label := "Good to Bad (%)",
          kind := "percent", minVal := 0, maxVal := 100 },
       { key := "burstloss-bg", label := "Bad to Good (%)",
          kind := "percent", minVal := 0, maxVal := 100 }]
  | .blackout =>
      [{ key := "blackout-inbound", label := "Inbound", kind := "bool" },
       { key := "blackout-outbound", label := "Outbound", kind := "bool" },
       { key := "blackout-duration", label := "Duration (ms)",
          kind := "int", minVal := 100, maxVal := 60000 },
       { key := "blackout-gap", label := "Gap (ms)",
          kind := "int", minVal := 1000, maxVal := 300000 },
       { key := "blackout-trigger", label := "Trigger now", kind := "action" }]
  | .throttle =>
      [{ key := "throttle-inbound", label := "Inbound", kind := "bool" },
       { key := "throttle-outbound", label := "Outbound", kind := "bool" },
       { key := "throttle-drop", label := "Drop throttled", kind := "bool" },
       { key := "throttle-frame", label := "Timeframe (ms)",
          kind := "int", minVal := 0, maxVal := 1000 },
       { key := "throttle-chance", label := "Chance (%)",
          kind := "percent", minVal := 0, maxVal := 100 }]
  | .dup =>
      [{ key := "duplicate-inbound", label := "Inbound", kind := "bool" },
       { key := "duplicate-outbound", label := "Outbound", kind := "bool" },
       { key := "duplicate-count", label := "Copies", kind := "int", minVal := 2, maxVal := 50 },
       { key := "duplicate-chance", label := "Chance (%)",
          kind := "percent", minVal := 0, maxVal := 100 }]
  | .ood =>
      [{ key := "ood-inbound", label := "Inbound", kind := "bool" },
       { key := "ood-outbound", label := "Outbound", kind := "bool" },
       { key := "ood-chance", label := "Chance (%)",
          kind := "percent", minVal := 0, maxVal := 100 },
       { key := "ood-buffer", label := "Buffer", kind := "int", minVal := 2, maxVal := 50 },
       { key := "ood-delay", label := "Delay (ms)", kind := "int", minVal := 10, maxVal := 2000 }]
  | .tamper =>
      [{ key := "tamper-inbound", label := "Inbound", kind := "bool" },
       { key := "tamper-outbound", label := "Outbound", kind := "bool" },
       { key := "tamper-checksum", label := "Redo checksum", kind := "bool" },
       { key := "tamper-chance", label := "Chance (%)",
          kind := "percent", minVal := 0, maxVal := 100 },
       { key := "tamper-position", label := "Position (0=Front 1=Center 2=Back 3=Random)",
          kind := "int", minVal := 0, maxVal := 3 }]
  | .corrupt =>
      [{ key := "corrupt-inbound", label := "Inbound", kind := "bool" },
       { key := "corrupt-outbound", label := "Outbound", kind := "bool" },
       { key := "corrupt-checksum", label := "Redo checksum", kind := "bool" },
       { key := "corrupt-chance", label := "Chance (%)",
          kind := "percent", minVal := 0, maxVal := 100 },
       { key := "corrupt-ber", label := "Bit error (ppm)",
          kind := "int", minVal := 0, maxVal := 1000000 }]
  | .reset =>
      [{ key := "reset-inbound", label := "Inbound", kind := "bool" },
       { key := "reset-outbound", label := "Outbound", kind := "bool" },
       { key := "reset-chance", label := "Chance (%)",
          kind := "percent", minVal := 0, maxVal := 100 },
       { key := "reset-next", label := "RST next packet", kind := "action" }]
  | .bandwidth =>
      [{ key := "bandwidth-inbound", label := "Inbound", kind := "bool" },
       { key := "bandwidth-outbound", label := "Outbound", kind := "bool" },
       { key := "bandwidth-bandwidth", label := "Limit (KB/s)",
          kind := "int", minVal := 0, maxVal := 99999 }]

end ModuleId

end Clumsy.Modules
