/-
What the executor reads of an accepted check: of a dumped model, each of its
defaults is there, every list holds dictionaries with a `type`, and only an
empty metric id is replaced.
-/
import SentinelFlow.Config.Parser
import SentinelFlow.Engine.Executor

namespace SentinelFlow

/-- The id an entry is executed under. -/
def MetricCheckConfig.checkId (c : MetricCheckConfig) : String :=
  if c.metricId.isEmpty then "unknown" else c.metricId

section Dump

variable (c : MetricCheckConfig)

theorem metricIdOf_modelDump : metricIdOf c.modelDump = c.checkId := rfl

theorem dictAt_resilience : dictAt c.modelDump "resilience" = c.resilience.modelDump := rfl

theorem listAt_evaluators : listAt c.modelDump "evaluators" = c.evaluators.map fun e => .dict e.modelDump := rfl

theorem listAt_handlers : listAt c.modelDump "handlers" = c.handlers.map fun h => .dict h.modelDump := rfl

/-- The two numbers of the policy are numerals in the dump. -/
theorem policyNumbers_modelDump :
    policyNumbers c.modelDump = .ok (c.alertPolicy.cooldownSeconds, c.alertPolicy.dedupeWindowSeconds) := by
  have hcooldown : cooldownOf c.modelDump = .ok c.alertPolicy.cooldownSeconds :=
    congrArg Except.ok (if_pos c.alertPolicy.cooldownNonneg)
  have hdedupe : dedupeOf c.modelDump = .ok c.alertPolicy.dedupeWindowSeconds :=
    congrArg Except.ok (if_pos c.alertPolicy.dedupeNonneg)
  rw [policyNumbers, hcooldown, hdedupe]
  rfl

end Dump

theorem typedEntry_evaluator (e : EvaluatorConfig) : typedEntry (.dict e.modelDump) = some (e.type, e.modelDump) := by
  cases e <;> rfl

theorem typedEntry_handler (h : SlackHandlerConfig) :
    typedEntry (.dict h.modelDump) = some ("slack_webhook", h.modelDump) := rfl

/-- The registry has the evaluators that the schema knows. -/
theorem getEvaluator_builtin (e : EvaluatorConfig) : ∃ r, Registry.builtin.getEvaluator e.type = .ok r := by
  obtain ⟨cls, hc⟩ : ∃ cls, (Registry.builtin.classes .evaluator).lookup e.type = some cls := by
    cases e <;> exact ⟨_, rfl⟩
  obtain ⟨reg, hg, -⟩ := Registry.builtin_regular.getInstance hc
  exact ⟨_, hg⟩

end SentinelFlow
