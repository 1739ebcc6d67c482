import Scaffold.Artifact.Routes
import Scaffold.Catalog.Types
import Scaffold.Document.Json.Printer

/-!
# Artifact/Suite — the tests of the routes of a model

The suite creates, lists, reads, updates and deletes records with one sample value for each field.
Where writing is guarded it signs in first, with one account for the role that writes and one for
the role that deletes.  Tokens are sent as headers; sessions are kept by an agent for each account.
-/

namespace Scaffold.Artifact

open Document Options Model

/-! ## Sample values -/

/-- A type whose samples are made unique by a text in front. -/
def isUniqueByPrefix : FieldType → Bool
  | .string | .text | .email => true
  | _ => false

/-- The sample value of a field; that of a unique field differs each time. -/
def sampleText (f : Field) : String :=
  let sample := Json.print .line (Catalog.facts f.type).sample
  if f.unique && isUniqueByPrefix f.type then "unique(" ++ sample ++ ")"
  else if f.unique && f.type = .url then sample ++ " + '/' + (++sequence)"
  else sample

/-- The members of the test data. -/
def sampleLines (m : Model) : List String :=
  m.dataFields.map fun f => "    " ++ f.name ++ ": " ++ sampleText f ++ ","

/-! ## Callers -/

/-- The role of the account that writes: the first that the model allows. -/
def writerRole (m : Model) : String := m.metadata.allowedRoles.headD "user"

/-- One account both writes and deletes. -/
def isShared (m : Model) : Bool := writerRole m = "admin"

/-- Where a request starts and the headers that are set on it. -/
structure Caller where
  origin : String
  headers : Option String

namespace Caller

/-- A caller that needs no account. -/
def anonymous : Caller := ⟨"request(app)", none⟩

def withHeaders (name : String) : Caller := ⟨"request(app)", some name⟩

/-- A caller that an agent stands for. -/
def agent (name : String) : Caller := ⟨name, none⟩

/-- The line that sets the headers. -/
def headerLines (c : Caller) (margin : String) : List String :=
  c.headers.toList.map fun name => margin ++ ".set(" ++ name ++ ")"

end Caller

/-- Who creates and updates records. -/
def writer (o : Generation) (m : Model) : Caller :=
  if !m.isGuarded o then .anonymous
  else if o.tokenAuth then .withHeaders "writerHeaders"
  else .agent "writer"

/-- Who deletes records. -/
def remover (o : Generation) (m : Model) : Caller :=
  if !m.isGuarded o then .anonymous
  else if o.tokenAuth then .withHeaders "adminHeaders"
  else .agent (if isShared m then "writer" else "admin")

/-! ## Signing in -/

def credentialLines : List String :=
  [r"    const credentials = {",
   r"      email: unique(`${role}@example.com`),",
   "      password: 'Str0ng!Passw0rd',",
   "      name: 'Test User',",
   "      role,",
   r"    };"]

/-- Signing in with tokens. -/
def tokenSignIn (m : Model) : List String :=
  [r"  const signIn = async (role: string): Promise<Record<string, string>> => {"] ++
    credentialLines ++
    ["    await request(app).post('/auth/register').send(credentials).expect(201);",
     "    const login = await request(app)",
     "      .post('/auth/login')",
     r"      .send({ email: credentials.email, password: credentials.password })",
     "      .expect(200);",
     r"    return { Authorization: `Bearer ${login.body.data.token}` };",
     r"  };",
     r"  let writerHeaders: Record<string, string> = {};",
     r"  let adminHeaders: Record<string, string> = {};",
     "",
     r"  beforeAll(async () => {",
     "    writerHeaders = await signIn('" ++ writerRole m ++ "');"] ++
    (if isShared m then
      ["    adminHeaders = writerHeaders;"]
    else
      ["    adminHeaders = await signIn('admin');"]) ++
    [r"  });",
     ""]

/-- Signing in with sessions. -/
def sessionSignIn (m : Model) : List String :=
  ["  const signIn = async (agent: ReturnType<typeof request.agent>, role: string): " ++
      r"Promise<void> => {"] ++ credentialLines ++
    ["    await agent.post('/auth/register').send(credentials).expect(201);",
     "    await agent",
     "      .post('/auth/login')",
     r"      .send({ email: credentials.email, password: credentials.password })",
     "      .expect(200);",
     r"  };",
     "  const writer = request.agent(app);"] ++
    (if isShared m then []
    else
      ["  const admin = request.agent(app);"]) ++
    ["",
     r"  beforeAll(async () => {",
     "    await signIn(writer, '" ++ writerRole m ++ "');"] ++
    (if isShared m then []
    else
      ["    await signIn(admin, 'admin');"]) ++
    [r"  });",
     ""]

def signInLines (o : Generation) (m : Model) : List String :=
  if !m.isGuarded o then [] else if o.tokenAuth then tokenSignIn m else sessionSignIn m

/-! ## Tests -/

def setupLines (o : Generation) (m : Model) : List String :=
  ["describe('" ++ m.name ++ r"Controller', () => {",
   "  let sequence = 0;",
   r"  const unique = (value: string): string => `${Date.now()}${++sequence}-${value}`;",
   r"  const buildTestData = (): Record<string, unknown> => ({"] ++ sampleLines m ++
    [r"  });",
     ""] ++ signInLines o m

def createHelperLines (writer : Caller) (m : Model) : List String :=
  ["  const create" ++ m.name ++ r" = () => {",
   "    return " ++ writer.origin,
   "      .post('/" ++ m.routeName ++ "')"] ++ writer.headerLines "      " ++
    ["      .send(buildTestData());",
     r"  };",
     ""]

def createTests (o : Generation) (m : Model) : List String :=
  let writer := writer o m
  ["  describe('POST /" ++ m.routeName ++ r"', () => {",
   "    it('should create a new " ++ m.name ++ r"', async () => {",
   "      const testData = buildTestData();",
   "      const response = await " ++ writer.origin,
   "        .post('/" ++ m.routeName ++ "')"] ++ writer.headerLines "        " ++
    ["        .send(testData)",
     "        .expect(201);",
     "",
     "      expect(response.body.success).toBe(true);",
     "      expect(response.body.data).toHaveProperty('id');"] ++
    (m.dataFields.map fun f =>
      "      expect(response.body.data." ++ f.name ++ ").toEqual(testData." ++ f.name ++ ");") ++
    [r"    });"] ++
    (if m.dataFields.any (·.required) then
      ["",
       r"    it('should return 400 for invalid data', async () => {",
       "      const response = await " ++ writer.origin,
       "        .post('/" ++ m.routeName ++ "')"] ++ writer.headerLines "        " ++
      [r"        .send({})",
       "        .expect(400);",
       "",
       "      expect(response.body.success).toBe(false);",
       "      expect(response.body.message).toBe('Validation failed');",
       r"    });"]
    else []) ++
    (if m.isGuarded o then
      ["",
       r"    it('should reject an anonymous caller', async () => {",
       "      await request(app).post('/" ++ m.routeName ++
          "').send(buildTestData()).expect(401);",
       r"    });"]
    else []) ++
    [r"  });",
     ""]

def readTests (m : Model) : List String :=
  ["  describe('GET /" ++ m.routeName ++ r"', () => {",
   "    it('should return a page of " ++ m.name ++ r" records', async () => {",
   "      const response = await request(app).get('/" ++ m.routeName ++ "').expect(200);",
   "",
   "      expect(response.body.success).toBe(true);",
   "      expect(Array.isArray(response.body.data)).toBe(true);",
   "      expect(response.body).toHaveProperty('pagination');",
   r"    });",
   r"  });",
   "",
   "  describe('GET /" ++ m.routeName ++ r"/:id', () => {",
   "    it('should return a " ++ m.name ++ r" by ID', async () => {",
   "      const created = await create" ++ m.name ++ "();",
   "      const id = created.body.data.id;",
   "",
   "      const response = await request(app).get(`/" ++ m.routeName ++ r"/${id}`).expect(200);",
   "",
   "      expect(response.body.success).toBe(true);",
   "      expect(response.body.data.id).toBe(id);",
   r"    });",
   "",
   "    it('should return 404 for non-existent " ++ m.name ++ r"', async () => {",
   "      const response = await request(app)",
   "        .get('/" ++ m.routeName ++ "/00000000-0000-0000-0000-000000000000')",
   "        .expect(404);",
   "",
   "      expect(response.body.success).toBe(false);",
   "      expect(response.body.message).toBe('" ++ m.name ++ " not found');",
   r"    });",
   r"  });",
   ""]

def updateTests (writer : Caller) (m : Model) : List String :=
  ["  describe('PUT /" ++ m.routeName ++ r"/:id', () => {",
   "    it('should update an existing " ++ m.name ++ r"', async () => {",
   "      const created = await create" ++ m.name ++ "();",
   "      const id = created.body.data.id;",
   "      const changes = buildTestData();",
   "",
   "      const response = await " ++ writer.origin,
   "        .put(`/" ++ m.routeName ++ r"/${id}`)"] ++ writer.headerLines "        " ++
    ["        .send(changes)",
     "        .expect(200);",
     "",
     "      expect(response.body.success).toBe(true);",
     "      expect(response.body.data.id).toBe(id);",
     r"    });",
     r"  });",
     ""]

def deleteTests (remover : Caller) (m : Model) : List String :=
  ["  describe('DELETE /" ++ m.routeName ++ r"/:id', () => {",
   "    it('should delete an existing " ++ m.name ++ r"', async () => {",
   "      const created = await create" ++ m.name ++ "();",
   "      const id = created.body.data.id;",
   "",
   "      await " ++ remover.origin,
   "        .delete(`/" ++ m.routeName ++ r"/${id}`)"] ++ remover.headerLines "        " ++
    ["        .expect(204);",
     "",
     "      await request(app).get(`/" ++ m.routeName ++ r"/${id}`).expect(404);",
     r"    });",
     r"  });",
     r"});"]

/-- The test suite of a model. -/
def suite (o : Generation) (m : Model) : Source where
  imports := [.whole "request" "supertest", .whole "app" "../app"]
  body := setupLines o m ++ createHelperLines (writer o m) m ++ createTests o m ++ readTests m ++
    updateTests (writer o m) m ++ deleteTests (remover o m) m

end Scaffold.Artifact
