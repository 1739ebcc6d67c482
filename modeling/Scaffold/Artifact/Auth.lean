import Scaffold.Artifact.Record
import Scaffold.Artifact.Routes
import Scaffold.Artifact.Schema
import Scaffold.Artifact.Source
import Scaffold.Document.Json.Printer
import Scaffold.Project.Auth
import Scaffold.Text.Lettercase

/-!
# Artifact/Auth — registering, logging in, and what a login is asked for

The accounts of a generated service are kept like the records of a model.  What lets a request pass
takes the user from a token or from a session, and may ask for a role.
-/

namespace Scaffold.Artifact

open Document Options Project Template

/-! ## Registering and logging in -/

/-- The service that registers users and signs them in. -/
def authService (r : Registry) (o : Generation) (a : Auth) : Except Failure String :=
  fromTemplate r "auth-service"
    [("tokenAuth", flagItem o.tokenAuth), ("defaultRole", textItem (a.defaultRole))]

/-- The controller of registering and logging in; a session keeps who logged in. -/
def authController (o : Generation) : Source where
  imports := [handlerImport, .parts ["AuthService"] "../services/AuthService",
    .parts ["CreateUserRequest", "LoginRequest"] "../models/User"]
  body :=
    [r"export class AuthController {",
     "  private authService: AuthService;",
     "",
     r"  constructor() {",
     "    this.authService = new AuthService();",
     r"  }",
     "",
     r"  register = async (req: Request, res: Response, next: NextFunction): Promise<void> => {",
     r"    try {",
     "      const userData: CreateUserRequest = req.body;",
     "      const result = await this.authService.register(userData);",
     r"      res.status(201).json({ success: true, message: 'User registered " ++
        r"successfully', data: result });",
     r"    } catch (error) {",
     "      next(error);",
     r"    }",
     r"  };",
     "",
     r"  login = async (req: Request, res: Response, next: NextFunction): Promise<void> => {",
     r"    try {",
     "      const credentials: LoginRequest = req.body;",
     "      const result = await this.authService.login(credentials);"] ++
    (if o.sessionAuth then
      [r"      (req as any).session.user = { userId: result.user.id, email: " ++
          r"result.user.email, role: result.user.role };"]
    else []) ++
    [r"      res.json({ success: true, message: 'Login successful', data: result });",
     r"    } catch (error) {",
     r"      res.status(401).json({ success: false, message: (error as Error).message });",
     r"    }",
     r"  };",
     r"}"]

/-- The routes of registering and logging in. -/
def authRoutes : Source where
  imports := [routerImport, .parts ["AuthController"] "../controllers/AuthController",
    .parts ["validateRegister", "validateLogin"] "../validation/AuthValidation"]
  body := ["const router = Router();", "const authController = new AuthController();", "",
    Route.line ⟨.post, "/register", .anyone, ["validateRegister", "authController.register"]⟩,
    Route.line ⟨.post, "/login", .anyone, ["validateLogin", "authController.login"]⟩, "",
    "export default router;"]

/-- The checks of the requests to register and to log in. -/
def authChecks (a : Auth) : Source where
  imports := bodyImports
  body :=
    let roles := ", ".intercalate (a.roleNames.map quoted)
    let plain := String.ofList (roles.toList.filter (· ≠ '\''))
    ["export const validateRegister = [",
     "  body('email').isEmail().normalizeEmail().withMessage('Please provide a valid " ++
        "email address'),",
     "  body('password')",
     r"    .isLength({ min: 8 })",
     "    .withMessage('Password must be at least 8 characters long')",
     r"    .matches(/^(?=.*[a-z])(?=.*[A-Z])(?=.*\d)(?=.*[@$!%*?&])/)",
     "    .withMessage('Password must contain an uppercase letter, a lowercase " ++
        "letter, a number and a special character'),",
     r"  body('name').trim().isLength({ min: 2, max: 50 }).withMessage('Name must be " ++
        "between 2 and 50 characters'),",
     "  body('role').optional().isIn([" ++ roles ++ "]).withMessage('Role must be one of: " ++
        plain ++ "'),",
     "  handleValidationErrors,",
     "];",
     "",
     "export const validateLogin = [",
     "  body('email').isEmail().normalizeEmail().withMessage('Please provide a valid " ++
        "email address'),",
     "  body('password').notEmpty().withMessage('Password is required'),",
     "  handleValidationErrors,",
     "];"]

/-! ## The records of users -/

/-- The interfaces of a user and of signing in. -/
def userModel (r : Registry) (o : Generation) (a : Auth) : Except Failure String :=
  let union := " | ".intercalate (a.roleNames.map quoted)
  fromTemplate r "user-model"
    [("roleUnion", textItem (if union = "" then "string" else union)),
      ("tokenAuth", flagItem o.tokenAuth)]

/-! ## Repositories -/

def userImport : Import := .parts ["User", "CreateUserRequest"] "../models/User"

/-- The repository of users in a collection. -/
def userCollection : Source where
  imports := [identifierImport, documentImport, userImport]
  body :=
    [r"type NewUser = CreateUserRequest & { isActive: boolean; emailVerified: boolean };",
     "",
     r"export class UserRepository {",
     r"  private collection() {",
     "    return getDb().collection<any>('users');",
     r"  }",
     "",
     r"  async create(userData: NewUser): Promise<User> {",
     "    const now = new Date();",
     r"    const document = { _id: randomUUID(), ...userData, createdAt: now, updatedAt: now };",
     "    await this.collection().insertOne(document);",
     "    return this.mapDocument(document);",
     r"  }",
     "",
     r"  async findByEmail(email: string): Promise<User | null> {",
     r"    const document = await this.collection().findOne({ email });",
     "    return document ? this.mapDocument(document) : null;",
     r"  }",
     "",
     r"  async updateLastLogin(id: string): Promise<void> {",
     "    const now = new Date();",
     r"    await this.collection().updateOne({ _id: id }, { $set: { lastLoginAt: now, " ++
        r"updatedAt: now } });",
     r"  }",
     "",
     r"  private mapDocument(document: any): User {",
     r"    return {",
     "      id: document._id,",
     "      email: document.email,",
     "      password: document.password,",
     "      name: document.name,",
     "      role: document.role,",
     "      isActive: document.isActive,",
     "      emailVerified: document.emailVerified,",
     "      lastLoginAt: document.lastLoginAt,",
     "      createdAt: document.createdAt,",
     "      updatedAt: document.updatedAt,",
     r"    };",
     r"  }",
     r"}"]

/-- The statements that add a user. -/
def insertLines : Dialect → List String
  | .mysql =>
    ["    const id = randomUUID();",
     "    await query(",
     r"      `INSERT INTO ${this.tableName} (id, email, password, name, role, " ++
        "is_active, email_verified) VALUES (?, ?, ?, ?, ?, ?, ?)`,",
     "      [id, userData.email, userData.password, userData.name, userData.role, " ++
        "userData.isActive, userData.emailVerified]",
     "    );",
     r"    const result = await query(`SELECT * FROM ${this.tableName} WHERE id = ?`, [id]);"]
  | .postgresql =>
    ["    const result = await query(",
     r"      `INSERT INTO ${this.tableName} (email, password, name, role, is_active, " ++
        "email_verified) VALUES ($1, $2, $3, $4, $5, $6) RETURNING *`,",
     "      [userData.email, userData.password, userData.name, userData.role, " ++
        "userData.isActive, userData.emailVerified]",
     "    );"]

/-- The repository of users in a table. -/
def userTable (d : Dialect) : Source where
  imports :=
    (match d with
    | .mysql => [identifierImport]
    | .postgresql => []) ++ [queryImport, userImport]
  body :=
    [r"type NewUser = CreateUserRequest & { isActive: boolean; emailVerified: boolean };",
     "",
     r"export class UserRepository {",
     "  private tableName = 'users';",
     "",
     r"  async create(userData: NewUser): Promise<User> {"] ++
    insertLines d ++
    ["    return this.mapRowToUser(result.rows[0]);",
     r"  }",
     "",
     r"  async findByEmail(email: string): Promise<User | null> {",
     r"    const result = await query(`SELECT * FROM ${this.tableName} WHERE email = " ++
        d.parameter 1 ++ "`, [email]);",
     "    return result.rows.length > 0 ? this.mapRowToUser(result.rows[0]) : null;",
     r"  }",
     "",
     r"  async updateLastLogin(id: string): Promise<void> {",
     "    await query(",
     r"      `UPDATE ${this.tableName} SET last_login_at = " ++ d.now ++ ", updated_at = " ++
        d.now ++ " WHERE id = " ++ d.parameter 1 ++ "`,",
     "      [id]",
     "    );",
     r"  }",
     "",
     r"  private mapRowToUser(row: any): User {",
     r"    return {",
     "      id: row.id,",
     "      email: row.email,",
     "      password: row.password,",
     "      name: row.name,",
     "      role: row.role,",
     "      isActive: Boolean(row.is_active),",
     "      emailVerified: Boolean(row.email_verified),",
     "      lastLoginAt: row.last_login_at,",
     "      createdAt: row.created_at,",
     "      updatedAt: row.updated_at,",
     r"    };",
     r"  }",
     r"}"]

/-- The repository of users in a database. -/
def userRepository : Database → Source
  | .mongodb => userCollection
  | database => userTable (.ofDatabase database)

/-! ## The table of users -/

/-- The check that a column holds one of the roles, if there are any. -/
def roleCheck (a : Auth) : String :=
  if a.roleNames.isEmpty then ""
  else " CHECK (role IN (" ++ ", ".intercalate (a.roleNames.map quoted) ++ "))"

/-- The role of the account that the schema adds. -/
def adminRole (a : Auth) : String :=
  if a.roleNames.contains "admin" then "admin" else a.defaultRole

def userTableLines (d : Dialect) (a : Auth) : List String :=
  ["CREATE TABLE users (",
    "  " ++ d.identifierColumn ++ ",",
    "  email VARCHAR(255) NOT NULL UNIQUE,",
    "  password VARCHAR(255) NOT NULL,",
    "  name VARCHAR(100) NOT NULL,",
    "  role VARCHAR(50) NOT NULL DEFAULT " ++ quoted a.defaultRole ++ roleCheck a ++ ",",
    "  is_active BOOLEAN NOT NULL DEFAULT TRUE,",
    "  email_verified BOOLEAN NOT NULL DEFAULT FALSE,",
    "  last_login_at " ++ d.stamp ++ ",",
    "  created_at " ++ d.stamp ++ " NOT NULL DEFAULT " ++ d.now ++ ",",
    "  updated_at " ++ d.stamp ++ " NOT NULL DEFAULT " ++ d.now,
    d.tableEnd,
    "",
    "CREATE INDEX idx_users_role ON users(role);",
    "CREATE INDEX idx_users_active ON users(is_active);",
    "",
    "-- Keep updated_at current on every update"]

/-- The trigger that keeps the moment of the last update. -/
def userTriggerLines : Dialect → List String
  | .mysql =>
    ["CREATE TRIGGER update_users_updated_at",
     "  BEFORE UPDATE ON users",
     "  FOR EACH ROW",
     "  SET NEW.updated_at = CURRENT_TIMESTAMP;"]
  | .postgresql =>
    ["CREATE OR REPLACE FUNCTION update_updated_at_column()",
     "RETURNS TRIGGER AS $$",
     "BEGIN",
     "  NEW.updated_at = NOW();",
     "  RETURN NEW;",
     "END;",
     "$$ LANGUAGE plpgsql;",
     "",
     "CREATE TRIGGER update_users_updated_at",
     "  BEFORE UPDATE ON users",
     "  FOR EACH ROW",
     "  EXECUTE FUNCTION update_updated_at_column();"]

/-- The schema of the table of users, with one account in it. -/
def userSchema (d : Dialect) (a : Auth) : String :=
  Text.paragraph (userTableLines d a ++ userTriggerLines d ++
    ["",
     "-- Default administrator (password: Admin123!)",
     "INSERT INTO users (email, password, name, role, is_active, email_verified)",
     "VALUES (",
     "  'admin@example.com',",
     "  '$2a$12$LQv3c1yqBWVHxkd0LHAkCOYz6TtxMQJqhN8/LewdBPj6hsxq/3/Hm',",
     "  'System Administrator',",
     "  '" ++ adminRole a ++ "',",
     "  TRUE,",
     "  TRUE",
     ");"])

/-! ## What lets a request pass -/

/-- The middleware that takes the user from a session. -/
def sessionMiddleware (lookup missing : String) : Source where
  imports := [handlerImport]
  body :=
    [r"export interface AuthenticatedRequest extends Request {",
     r"  user: {",
     "    userId: string;",
     "    email: string;",
     "    role: string;",
     r"  };",
     r"}",
     "",
     "export const authenticateToken = (req: Request, res: Response, next: " ++
        r"NextFunction): void => {",
     "  const user = " ++ lookup ++ ";",
     r"  if (!user) {",
     r"    res.status(401).json({ success: false, message: '" ++ missing ++ r"' });",
     "    return;",
     r"  }",
     "  (req as AuthenticatedRequest).user = user;",
     "  next();",
     r"};"]

/-- The middleware that requires a login. -/
def authMiddleware (r : Registry) (a : Auth) : Except Failure String :=
  match a.strategy with
  | .jwt => fromTemplate r "jwt-auth-middleware" []
  | .session => .ok (sessionMiddleware "(req as any).session?.user" "Login required").text
  | _ => .ok (sessionMiddleware
      "(req as any).isAuthenticated?.() ? (req as any).user : (req as any).session?.user"
      "OAuth login required").text

/-- A role as the authorization template sees it. -/
def roleItem (role : Role) : Item :=
  .record [("name", textItem role.name), ("capitalizedName", textItem (Text.upperFirst role.name))]

/-- The middleware that requires a role. -/
def authorizationMiddleware (r : Registry) (a : Auth) : Except Failure String :=
  fromTemplate r "authorization-middleware"
    [("roles", .list (a.roles.map roleItem)),
      ("rolesJson", textItem (Json.print .line (.list (a.roles.map Role.document))))]

end Scaffold.Artifact
