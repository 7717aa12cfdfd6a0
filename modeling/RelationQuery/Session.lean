import RelationQuery.Result

/-! A database and a configuration, checked once for all queries made from them. -/
namespace RelationQuery

structure Session where
  driver : Driver
  config : Config

namespace Session

def connect (driver : Driver) (config : Config) : Except Error Session := do
  config.validate.mapError .config
  return { driver, config }

def query (session : Session) (table : String) : Except Error Query :=
  (Query.empty session.config).fromTable table

def get (session : Session) (q : Query) : Except Error Result × List String :=
  q.get session.driver

end Session

def Query.table (table : String) : Except Error Query := (Query.empty {}).fromTable table

end RelationQuery
