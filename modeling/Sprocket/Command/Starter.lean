/-!
# The starter manifest

What `init` writes: one group with a procedure of each kind, and the rules told in comments.
-/

namespace Sprocket.Command

/-- The lines of the starter manifest. -/
def starterLines : List String :=
  ["# Dataflip configuration.",
    "#",
    "# Each [[contexts]] entry generates one data-access class. Procedures are",
    "# resolved against the database when you run `dataflip generate`.",
    "",
    "[[contexts]]",
    "name = \"AppContext\"",
    "namespace = \"App.Data\"",
    "",
    "[contexts.database]",
    "# Set exactly one of `url` or `env`.",
    "env = \"DATABASE_URL\"",
    "# url = \"postgres://localhost/app\"",
    "",
    "[contexts.output]",
    "host = \"generated/AppContext.cs\"",
    "# typings = \"generated/app-context.d.ts\"",
    "# bindings = \"generated/app-context.html\"",
    "# camel_case = true",
    "",
    "# A procedure without `trial` or `returns` returns its affected row count.",
    "[[contexts.procedures]]",
    "name = \"touch_user\"",
    "method = \"TouchUser\"",
    "",
    "# `returns` declares a scalar result.",
    "[[contexts.procedures]]",
    "name = \"count_users\"",
    "method = \"CountUsers\"",
    "returns = \"int\"",
    "comments = \"Counts every registered user.\"",
    "",
    "# `trial` executes the procedure with sample arguments and generates a",
    "# result class from the columns it returns. Trials are rolled back.",
    "[[contexts.procedures]]",
    "name = \"get_users\"",
    "method = \"GetUsers\"",
    "trial = ['name: \"Bob\"']"]

/-- The starter manifest; every line ends in a newline. -/
def starterManifest : String := String.join (starterLines.map (· ++ "\n"))

end Sprocket.Command
