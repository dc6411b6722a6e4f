/-!
# Platforms

A platform marks the functions that are flows with a decorator, and may have a
constructor whose result is a flow.  The keywords of either can give the flow its
name and its description.
-/

namespace FlowSurvey

inductive Platform where
  | prefect
  | airflow
  deriving DecidableEq, Repr

def Platform.name : Platform → String
  | .prefect => "prefect"
  | .airflow => "airflow"

def Platform.all : List Platform :=
  [.prefect, .airflow]

def Platform.ofName? (name : String) : Option Platform :=
  Platform.all.find? fun platform => platform.name == name

/-- How a flow is marked in source. -/
structure Marking where
  decorator : String
  constructor? : Option String
  idKeyword : String
  descriptionKeyword : String
  deriving DecidableEq, Repr

def Platform.marking : Platform → Marking
  | .prefect => ⟨"flow", none, "name", "description"⟩
  | .airflow => ⟨"dag", some "DAG", "dag_id", "description"⟩

end FlowSurvey
