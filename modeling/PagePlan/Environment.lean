/-
# The environment

Variables by name, as a process finds them when it starts.
-/

namespace PagePlan

/-- The variables of a process. -/
structure Environment where
  bindings : List (String × String)

namespace Environment

def empty : Environment := ⟨[]⟩

/-- The value of a variable. -/
def get? (env : Environment) (name : String) : Option String :=
  (env.bindings.find? fun v => v.1 = name).map Prod.snd

/-- Sets a variable, or removes it. -/
def set (env : Environment) (name : String) (value : Option String) : Environment :=
  ⟨(value.map fun v => (name, v)).toList ++ env.bindings.filter fun v => v.1 ≠ name⟩

@[simp] theorem get?_set (env : Environment) (name : String) (value : Option String) :
    (env.set name value).get? name = value := by
  cases value <;> simp [get?, set]

/-- The key for a model provider. -/
def keyVariable : String := "OPENAI_API_KEY"

/-- The address of a model provider. -/
def addressVariable : String := "OPENAI_BASE_URL"

/-- The model to be used. -/
def modelVariable : String := "SCRAPEPLAN_MODEL"

/-- The level from which the journal is written. -/
def levelVariable : String := "SCRAPEPLAN_LOGGING_LEVEL"

end Environment

end PagePlan
