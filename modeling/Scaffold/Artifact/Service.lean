import Scaffold.Artifact.Source
import Scaffold.Model.Basic

/-!
# Artifact/Service — the service of a model, between its controller and its repository
-/

namespace Scaffold.Artifact

/-- The imports of the record of a model and of the requests that create and update it. -/
def recordImport (m : Model) : Import :=
  .parts [m.name, "Create" ++ m.name ++ "Request", "Update" ++ m.name ++ "Request"]
    ("../models/" ++ m.name)

/-- The name under which a service holds its repository. -/
def repositoryVar (m : Model) : String := Naming.camel m.name ++ "Repository"

def serviceBody (m : Model) : List String :=
  ["export class " ++ m.name ++ r"Service {",
   "  private " ++ repositoryVar m ++ ": " ++ m.name ++ "Repository;",
   "",
   r"  constructor() {",
   "    this." ++ repositoryVar m ++ " = new " ++ m.name ++ "Repository();",
   r"  }",
   "",
   "  async create(data: Create" ++ m.name ++ "Request): Promise<" ++ m.name ++ r"> {",
   "    return this." ++ repositoryVar m ++ ".create(data);",
   r"  }",
   "",
   "  async getById(id: string): Promise<" ++ m.name ++ r" | null> {",
   "    return this." ++ repositoryVar m ++ ".findById(id);",
   r"  }",
   "",
   r"  async getAll(page = 1, limit = 10): Promise<{ items: " ++ m.name ++
      r"[]; total: number }> {",
   "    const offset = (page - 1) * limit;",
   "    const [items, total] = await Promise.all([",
   "      this." ++ repositoryVar m ++ ".findMany(limit, offset),",
   "      this." ++ repositoryVar m ++ ".count(),",
   "    ]);",
   r"    return { items, total };",
   r"  }",
   "",
   "  async update(id: string, data: Update" ++ m.name ++ "Request): Promise<" ++ m.name ++
      r" | null> {",
   "    const existing = await this." ++ repositoryVar m ++ ".findById(id);",
   r"    if (!existing) {",
   "      return null;",
   r"    }",
   "    return this." ++ repositoryVar m ++ ".update(id, data);",
   r"  }",
   "",
   r"  async delete(id: string): Promise<boolean> {",
   "    const existing = await this." ++ repositoryVar m ++ ".findById(id);",
   r"    if (!existing) {",
   "      return false;",
   r"    }",
   "    await this." ++ repositoryVar m ++ ".delete(id);",
   "    return true;",
   r"  }",
   r"}"]

/-- The service of a model. -/
def service (m : Model) : Source where
  imports := [.parts [m.name ++ "Repository"] ("../repositories/" ++ m.name ++ "Repository"),
    recordImport m]
  body := serviceBody m

end Scaffold.Artifact
