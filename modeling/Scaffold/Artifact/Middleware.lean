import Scaffold.Artifact.Source
import Scaffold.Options.Generation

/-!
# Artifact/Middleware — what every request passes, and the connection to the database
-/

namespace Scaffold.Artifact

open Options

/-- The connection to the database.  For a relational database it offers `query`, for documents
`connect` and `getDb`. -/
def connection : Database → Source
  | .postgresql =>
    { imports := [.parts ["Pool"] "pg"]
      body :=
        [r"const pool = new Pool({",
         "  connectionString: process.env.DATABASE_URL,",
         r"  ssl: process.env.NODE_ENV === 'production' ? { rejectUnauthorized: false } : false,",
         r"});",
         "",
         "export default pool;",
         "",
         "export const query = (text: string, params?: unknown[]) => pool.query(text, params);"] }
  | .mysql =>
    { imports := [.whole "mysql" "mysql2/promise"]
      body :=
        ["const pool = mysql.createPool(process.env.DATABASE_URL as string);",
         "",
         "export default pool;",
         "",
         r"export const query = async (text: string, params: unknown[] = []) => {",
         "  const [rows] = await pool.query(text, params);",
         r"  return { rows: rows as any[] };",
         r"};"] }
  | .mongodb =>
    { imports := [.parts ["MongoClient", "Db"] "mongodb"]
      body :=
        ["const client = new MongoClient(process.env.DATABASE_URL as string);",
         "let database: Db | null = null;",
         "",
         r"export const connect = async (): Promise<Db> => {",
         r"  if (!database) {",
         "    await client.connect();",
         "    database = client.db();",
         r"  }",
         "  return database;",
         r"};",
         "",
         r"export const getDb = (): Db => {",
         r"  if (!database) {",
         "    throw new Error('Database not connected; call connect() first');",
         r"  }",
         "  return database;",
         r"};",
         "",
         "export default client;"] }

/-- Headers that let other origins in. -/
def corsMiddleware : Source where
  imports := [handlerImport]
  body :=
    ["export const corsMiddleware = (req: Request, res: Response, next: " ++
        r"NextFunction): void => {",
     "  res.header('Access-Control-Allow-Origin', process.env.CORS_ORIGIN || '*');",
     "  res.header('Access-Control-Allow-Methods', 'GET, POST, PUT, DELETE, OPTIONS');",
     "  res.header('Access-Control-Allow-Headers', 'Origin, X-Requested-With, " ++
        "Content-Type, Accept, Authorization');",
     "",
     r"  if (req.method === 'OPTIONS') {",
     "    res.sendStatus(200);",
     "    return;",
     r"  }",
     "  next();",
     r"};"]

/-- One line of the log for each request. -/
def loggingMiddleware : Source where
  imports := [handlerImport]
  body :=
    ["export const loggingMiddleware = (req: Request, res: Response, next: " ++
        r"NextFunction): void => {",
     "  const start = Date.now();",
     "",
     r"  res.on('finish', () => {",
     r"    const entry = {",
     "      method: req.method,",
     "      url: req.originalUrl,",
     "      status: res.statusCode,",
     r"      duration: `${Date.now() - start}ms`,",
     "      timestamp: new Date().toISOString(),",
     "      userAgent: req.get('User-Agent'),",
     "      ip: req.ip,",
     r"    };",
     "    console.log(JSON.stringify(entry));",
     r"  });",
     "",
     "  next();",
     r"};"]

/-- The answer to requests that fail their checks, and the last handler of errors. -/
def validationMiddleware : Source where
  imports := [handlerImport, .parts ["validationResult"] "express-validator"]
  body :=
    ["export const handleValidationErrors = (req: Request, res: Response, next: " ++
        r"NextFunction): void => {",
     "  const errors = validationResult(req);",
     r"  if (!errors.isEmpty()) {",
     r"    res.status(400).json({",
     "      success: false,",
     "      message: 'Validation failed',",
     r"      errors: errors.array().map((error: any) => ({",
     "        field: error.type === 'field' ? error.path : 'unknown',",
     "        message: error.msg,",
     "        value: error.type === 'field' ? error.value : undefined,",
     r"      })),",
     r"    });",
     "    return;",
     r"  }",
     "  next();",
     r"};",
     "",
     "export const errorHandler = (error: Error, req: Request, res: Response, next: " ++
        r"NextFunction): void => {",
     "  console.error('Error:', error);",
     "  const production = process.env.NODE_ENV === 'production';",
     r"  res.status(500).json({",
     "    success: false,",
     "    message: production ? 'Internal server error' : error.message,",
     r"    ...(production ? {} : { stack: error.stack }),",
     r"  });",
     r"};"]

end Scaffold.Artifact
