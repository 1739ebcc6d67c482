import Scaffold.Artifact.Schema
import Scaffold.Artifact.Service

/-!
# Artifact/Repository — the repository of a model

In a relational database the repository maps members of a record to columns by one table,
`COLUMNS`, and rows to records by one method.  A model that is deleted softly is read only while it
is not marked as deleted.
-/

/-! ## Models that are kept in tables -/

namespace Scaffold.Artifact.Relational

/-- The condition, after another one, that a record is not deleted. -/
def live (m : Model) : String := if m.metadata.softDelete then " AND deleted_at IS NULL" else ""

/-- The clause that a record is not deleted. -/
def liveWhere (m : Model) : String :=
  if m.metadata.softDelete then " WHERE deleted_at IS NULL" else ""

/-- The column by which pages are ordered. -/
def orderColumn (m : Model) : String := if m.metadata.timestamps then "created_at" else "id"

/-- The columns of the members of a record. -/
def columnMap (m : Model) : List String :=
  m.dataFields.map fun f => "  " ++ f.name ++ ": '" ++ Naming.snake f.name ++ "',"

def headLines (m : Model) : List String :=
  [r"const COLUMNS: Record<string, string> = {"] ++ columnMap m ++
    [r"};",
     "",
     r"const toEntries = (data: object): Array<[string, unknown]> => {",
     "  return Object.entries(data).filter(([key]) => key in COLUMNS);",
     r"};",
     "",
     "export class " ++ m.name ++ r"Repository {",
     "  private tableName = '" ++ m.tableName ++ "';",
     ""]

def createLines (d : Dialect) (m : Model) : List String :=
  ["  async create(data: Create" ++ m.name ++ "Request): Promise<" ++ m.name ++ r"> {",
   "    const entries = toEntries(data);"] ++
    (match d with
    | .mysql =>
      ["    const id = randomUUID();",
       "    const columns = ['id', ...entries.map(([key]) => COLUMNS[key])].join(', ');",
       "    const placeholders = ['?', ...entries.map(() => '?')].join(', ');",
       "    await query(",
       r"      `INSERT INTO ${this.tableName} (${columns}) VALUES (${placeholders})`,",
       "      [id, ...entries.map(([, value]) => value)]",
       "    );",
       "    return (await this.findById(id)) as " ++ m.name ++ ";"]
    | .postgresql =>
      ["    const columns = entries.map(([key]) => COLUMNS[key]).join(', ');",
       r"    const placeholders = entries.map((_, index) => `$${index + 1}`).join(', ');",
       "    const result = await query(",
       r"      `INSERT INTO ${this.tableName} (${columns}) VALUES (${placeholders}) " ++
          "RETURNING *`,",
       "      entries.map(([, value]) => value)",
       "    );",
       "    return this.mapRowToModel(result.rows[0]);"]) ++
    [r"  }",
     ""]

def findLines (d : Dialect) (m : Model) : List String :=
  ["  async findById(id: string): Promise<" ++ m.name ++ r" | null> {",
   "    const result = await query(",
   r"      `SELECT * FROM ${this.tableName} WHERE id = " ++ d.parameter 1 ++ live m ++ "`,",
   "      [id]",
   "    );",
   "    return result.rows.length > 0 ? this.mapRowToModel(result.rows[0]) : null;",
   r"  }",
   "",
   "  async findMany(limit: number, offset: number): Promise<" ++ m.name ++ r"[]> {",
   "    const result = await query(",
   r"      `SELECT * FROM ${this.tableName}" ++ liveWhere m ++ " ORDER BY " ++ orderColumn m ++
      " DESC LIMIT " ++ d.parameter 1 ++ " OFFSET " ++ d.parameter 2 ++ "`,",
   "      [limit, offset]",
   "    );",
   "    return result.rows.map((row: any) => this.mapRowToModel(row));",
   r"  }",
   "",
   r"  async count(): Promise<number> {",
   r"    const result = await query(`SELECT COUNT(*) AS count FROM ${this.tableName}" ++
      liveWhere m ++ "`);",
   "    return Number(result.rows[0].count);",
   r"  }",
   ""]

def updateLines (d : Dialect) (m : Model) : List String :=
  let touch := if m.metadata.timestamps then ", updated_at = " ++ d.now else ""
  ["  async update(id: string, data: Update" ++ m.name ++ "Request): Promise<" ++ m.name ++
      r" | null> {",
   "    const entries = toEntries(data);",
   r"    if (entries.length === 0) {",
   "      return this.findById(id);",
   r"    }"] ++
    (match d with
    | .mysql =>
      [r"    const setClause = entries.map(([key]) => `${COLUMNS[key]} = ?`).join(', ');",
       "    await query(",
       r"      `UPDATE ${this.tableName} SET ${setClause}" ++ touch ++ " WHERE id = ?`,",
       "      [...entries.map(([, value]) => value), id]",
       "    );",
       "    return this.findById(id);"]
    | .postgresql =>
      [r"    const setClause = entries.map(([key], index) => `${COLUMNS[key]} = " ++
          r"$${index + 2}`).join(', ');",
       "    const result = await query(",
       r"      `UPDATE ${this.tableName} SET ${setClause}" ++ touch ++
          " WHERE id = $1 RETURNING *`,",
       "      [id, ...entries.map(([, value]) => value)]",
       "    );",
       "    return result.rows.length > 0 ? this.mapRowToModel(result.rows[0]) : null;"]) ++
    [r"  }",
     ""]

def deleteLines (d : Dialect) (m : Model) : List String :=
  [r"  async delete(id: string): Promise<void> {"] ++
    (if m.metadata.softDelete then
      [r"    await query(`UPDATE ${this.tableName} SET deleted_at = " ++ d.now ++
          " WHERE id = " ++ d.parameter 1 ++ "`, [id]);"]
    else
      [r"    await query(`DELETE FROM ${this.tableName} WHERE id = " ++ d.parameter 1 ++
          "`, [id]);"]) ++
    [r"  }",
     ""]

/-- The members of a record from the columns of a row. -/
def rowMap (m : Model) : List String :=
  m.dataFields.map fun f => "      " ++ f.name ++ ": row." ++ Naming.snake f.name ++ ","

def mapperLines (m : Model) : List String :=
  ["  private mapRowToModel(row: any): " ++ m.name ++ r" {",
   r"    return {",
   "      id: row.id,"] ++ rowMap m ++
    (if m.metadata.timestamps then
      ["      createdAt: row.created_at,",
       "      updatedAt: row.updated_at,"]
    else []) ++
    (if m.metadata.softDelete then
      ["      deletedAt: row.deleted_at,"]
    else []) ++
    [r"    };",
     r"  }",
     r"}"]

/-- The repository of a model in a table. -/
def repository (d : Dialect) (m : Model) : Source where
  imports :=
    (match d with
    | .mysql => [identifierImport]
    | .postgresql => []) ++ [queryImport, recordImport m]
  body := headLines m ++ createLines d m ++ findLines d m ++ updateLines d m ++ deleteLines d m ++
    mapperLines m

end Scaffold.Artifact.Relational

/-! ## Models that are kept as documents -/

namespace Scaffold.Artifact.Collection

/-- The member, after another one, of a document that is not deleted. -/
def live (m : Model) : String := if m.metadata.softDelete then ", deletedAt: null" else ""

/-- The filter for documents that are not deleted. -/
def liveFilter (m : Model) : String :=
  if m.metadata.softDelete then r"{ deletedAt: null }" else r"{}"

/-- The member by which pages are ordered. -/
def orderField (m : Model) : String := if m.metadata.timestamps then "createdAt" else "_id"

/-- What an update sets. -/
def updateDocument (m : Model) : String :=
  if m.metadata.timestamps then r"{ ...data, updatedAt: new Date() }" else r"{ ...data }"

def headLines (m : Model) : List String :=
  ["export class " ++ m.name ++ r"Repository {",
   "  private collectionName = '" ++ m.tableName ++ "';",
   "",
   r"  private collection() {",
   "    return getDb().collection<any>(this.collectionName);",
   r"  }",
   ""]

def createLines (m : Model) : List String :=
  ["  async create(data: Create" ++ m.name ++ "Request): Promise<" ++ m.name ++ r"> {"] ++
    (if m.metadata.timestamps then
      ["    const now = new Date();",
        r"    const document = { _id: randomUUID(), ...data, createdAt: now, updatedAt: now" ++
          live m ++ r" };"]
    else [r"    const document = { _id: randomUUID(), ...data" ++ live m ++ r" };"]) ++
    ["    await this.collection().insertOne(document);",
     "    return this.mapDocument(document);",
     r"  }",
     ""]

def findLines (m : Model) : List String :=
  ["  async findById(id: string): Promise<" ++ m.name ++ r" | null> {",
   r"    const document = await this.collection().findOne({ _id: id" ++ live m ++ r" });",
   "    return document ? this.mapDocument(document) : null;",
   r"  }",
   "",
   "  async findMany(limit: number, offset: number): Promise<" ++ m.name ++ r"[]> {",
   "    const documents = await this.collection()",
   "      .find(" ++ liveFilter m ++ ")",
   r"      .sort({ " ++ orderField m ++ r": -1 })",
   "      .skip(offset)",
   "      .limit(limit)",
   "      .toArray();",
   "    return documents.map((document) => this.mapDocument(document));",
   r"  }",
   "",
   r"  async count(): Promise<number> {",
   "    return this.collection().countDocuments(" ++ liveFilter m ++ ");",
   r"  }",
   ""]

def updateLines (m : Model) : List String :=
  ["  async update(id: string, data: Update" ++ m.name ++ "Request): Promise<" ++ m.name ++
      r" | null> {",
   "    const document = await this.collection().findOneAndUpdate(",
   r"      { _id: id" ++ live m ++ r" },",
   r"      { $set: " ++ updateDocument m ++ r" },",
   r"      { returnDocument: 'after' }",
   "    );",
   "    return document ? this.mapDocument(document) : null;",
   r"  }",
   ""]

def deleteLines (m : Model) : List String :=
  [r"  async delete(id: string): Promise<void> {"] ++
    (if m.metadata.softDelete then
      [r"    await this.collection().updateOne({ _id: id }, { $set: { deletedAt: new " ++
          r"Date() } });"]
    else
      [r"    await this.collection().deleteOne({ _id: id });"]) ++
    [r"  }",
     ""]

/-- The members of a record from the members of a document. -/
def documentMap (m : Model) : List String :=
  m.dataFields.map fun f => "      " ++ f.name ++ ": document." ++ f.name ++ ","

def mapperLines (m : Model) : List String :=
  ["  private mapDocument(document: any): " ++ m.name ++ r" {",
   r"    return {",
   "      id: document._id,"] ++ documentMap m ++
    (if m.metadata.timestamps then
      ["      createdAt: document.createdAt,",
       "      updatedAt: document.updatedAt,"]
    else []) ++
    (if m.metadata.softDelete then
      ["      deletedAt: document.deletedAt,"]
    else []) ++
    [r"    };",
     r"  }",
     r"}"]

/-- The repository of a model in a collection. -/
def repository (m : Model) : Source where
  imports := [identifierImport, documentImport, recordImport m]
  body := headLines m ++ createLines m ++ findLines m ++ updateLines m ++ deleteLines m ++
    mapperLines m

end Scaffold.Artifact.Collection

/-! ## Models of a database -/

namespace Scaffold.Artifact

open Options

/-- The repository of a model in a database. -/
def repository (database : Database) (m : Model) : Source :=
  match database with
  | .mongodb => Collection.repository m
  | database => Relational.repository (.ofDatabase database) m

end Scaffold.Artifact
